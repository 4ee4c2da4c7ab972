import PdfContent.Proofs.Ranges
import PdfContent.Proofs.Running

/-!
# Operators by index

Some operators take operands in slices, numbers out of the vector that a matrix or a rectangle is
read as, or codes off the front of a string. Here these accesses are checked, where they are made
and when they are made. How many operands a handler finds is said by the table, in the number that
it asks for, and by the operator that passes them on.

Each handler does what the table's own one does whenever the table calls it. So carrying out a call
with these handlers is carrying it out with the table.
-/

-- The equation that a match is given below serves its termination proof.
set_option linter.unusedVariables false

namespace PdfContent

variable {K σ : Type}

/-- An action whose accesses by index are checked. One out of range ends it. -/
abbrev CheckedAction (K σ α : Type) := ExceptT OutOfRange (Action K σ) α

/-- What an operator does, with the accesses that it makes by index. An operator that stands for
others takes the operands of each of them when its turn has come. -/
inductive CheckedHandler (K σ : Type)
  | action (run : Call K → CheckedAction K σ Unit)
  | sequence (steps : Call K →
      Except OperatorError (List (String × Except OutOfRange (List (Operand K)))))

/-- The operators of a sequence with operands that are there. -/
def taken (calls : List (String × List (Operand K))) :
    List (String × Except OutOfRange (List (Operand K))) :=
  calls.map fun step => (step.1, .ok step.2)

namespace CheckedHandler

/-- A handler that accesses nothing by index. -/
def ofHandler : Handler K (Action K σ) → CheckedHandler K σ
  | .action run => .action fun call => ExceptT.lift (run call)
  | .sequence steps => .sequence fun call => (steps call).map taken

/-- The handler does what an entry says, with no access out of range, for any call with as many
operands as the entry asks for. -/
inductive Fits : CheckedHandler K σ → TableEntry K (Action K σ) → Prop
  | action {keyword : String} {minOperands : Nat} {checked : Call K → CheckedAction K σ Unit}
    {run : Call K → Action K σ Unit}
    (same : ∀ call, minOperands ≤ call.operands.length → checked call = ExceptT.lift (run call)) :
    Fits (.action checked) ⟨keyword, minOperands, .action run⟩
  | sequence {keyword : String} {minOperands : Nat}
    {checked : Call K → Except OperatorError (List (String × Except OutOfRange (List (Operand K))))}
    {steps : Call K → Except OperatorError (List (String × List (Operand K)))}
    (same : ∀ call, minOperands ≤ call.operands.length → checked call = (steps call).map taken) :
    Fits (.sequence checked) ⟨keyword, minOperands, .sequence steps⟩

theorem fits_ofHandler (e : TableEntry K (Action K σ)) : (ofHandler e.handler).Fits e := by
  obtain ⟨keyword, minOperands, run | steps⟩ := e
  · exact .action fun _ _ => rfl
  · exact .sequence fun _ _ => rfl

end CheckedHandler

/-- Handlers with the keywords of their operators. -/
abbrev CheckedHandlers (K σ : Type) := List (String × CheckedHandler K σ)

namespace OperatorTable

variable (t : ContentTable K σ) (handlers : CheckedHandlers K σ)

/-- The handler for an entry: the checked one, or else the table's own. -/
def checkedHandler (e : TableEntry K (Action K σ)) : CheckedHandler K σ :=
  (handlers.lookup e.keyword).getD (.ofHandler e.handler)

/-- Carries out a call with accesses by index checked. -/
def checkedDispatchWithin (links : Nat) (call : Call K) : CheckedAction K σ Unit :=
  match t.find? call.operator.keyword with
  | none => ExceptT.lift (throw (.unknownOperator call.operator.keyword))
  | some entry =>
    if call.operands.length < entry.minOperands then
      ExceptT.lift
        (throw (.missingOperand call.operator.keyword entry.minOperands call.operands.length))
    else
      match checkedHandler handlers entry with
      | .action run => run call
      | .sequence steps =>
        match links, steps call with
        | 0, _ => ExceptT.lift (throw (.unknownOperator call.operator.keyword))
        | _, .error e => ExceptT.lift (throw e)
        | links + 1, .ok calls =>
          calls.forM fun step => do
            checkedDispatchWithin links ⟨.plain step.1, ← step.2⟩

/-- Carries out a call as `dispatch` does, with accesses by index checked. -/
def checkedDispatch (call : Call K) : CheckedAction K σ Unit :=
  t.checkedDispatchWithin handlers (3 * (call.operands.length + 1)) call

/-- Every checked handler fits the entry that it stands in for. -/
def Fit : Prop := ∀ x ∈ handlers, ∀ e, t.find? x.1 = some e → x.2.Fits e

end OperatorTable

section Lifting

variable {α β : Type}

theorem lift_bind (x : Action K σ α) (f : α → Action K σ β) :
    (ExceptT.lift (x >>= f) : CheckedAction K σ β) =
      ExceptT.lift x >>= fun a => ExceptT.lift (f a) := by
  apply ExceptT.ext
  simp only [ExceptT.run_lift, ExceptT.run_bind, bind_map_left, map_bind]

/-- An access within range goes on with its value. -/
theorem checked_ok_bind (a : α) (f : α → CheckedAction K σ β) :
    ((liftM (.ok a : Except OutOfRange α) : CheckedAction K σ α) >>= f) = f a := rfl

theorem forM_lift (f : α → Action K σ Unit) (items : List α) :
    (items.forM fun a => (ExceptT.lift (f a) : CheckedAction K σ Unit)) =
      ExceptT.lift (items.forM f) := by
  induction items with
  | nil => rfl
  | cons a items ih =>
      change (ExceptT.lift (f a) >>= fun _ => items.forM fun a => ExceptT.lift (f a)) = _
      rw [ih, ← lift_bind]
      rfl

/-- Operands that are there are taken. -/
theorem forM_taken (calls : List (String × List (Operand K)))
    (f : String → List (Operand K) → CheckedAction K σ Unit) :
    ((taken calls).forM fun step => do f step.1 (← step.2)) =
      calls.forM fun step => f step.1 step.2 := by
  induction calls with
  | nil => rfl
  | cons step calls ih => exact congrArg (fun later => f step.1 step.2 >>= fun _ => later) ih

end Lifting

namespace OperatorTable

variable {t : ContentTable K σ} {handlers : CheckedHandlers K σ} {e : TableEntry K (Action K σ)}

theorem Fit.checkedHandler (fit : t.Fit handlers) (found : t.find? e.keyword = some e) :
    (checkedHandler handlers e).Fits e := by
  rw [OperatorTable.checkedHandler]
  cases listed : handlers.lookup e.keyword with
  | none => exact CheckedHandler.fits_ofHandler e
  | some handler =>
      obtain ⟨before, after, split, _⟩ := List.lookup_eq_some_iff.mp listed
      have mem : (e.keyword, handler) ∈ handlers := by
        rw [split]
        exact List.mem_append_right _ List.mem_cons_self
      exact fit _ mem e found

/-- Carrying out a call with checked handlers that fit is carrying it out with the table. -/
theorem Fit.checkedDispatchWithin (fit : t.Fit handlers) (links : Nat) (call : Call K) :
    t.checkedDispatchWithin handlers links call = ExceptT.lift (t.dispatchWithin links call) := by
  induction links using Nat.strongRecOn generalizing call with
  | ind links ih =>
  unfold OperatorTable.checkedDispatchWithin OperatorTable.dispatchWithin
  cases found : t.find? call.operator.keyword with
  | none => rfl
  | some e =>
      have key : e.keyword = call.operator.keyword := by simpa using List.find?_some found
      have fits := fit.checkedHandler (key ▸ found)
      dsimp only
      split
      · rfl
      next enough =>
        have enough := Nat.le_of_not_lt enough
        generalize OperatorTable.checkedHandler handlers e = handler at fits ⊢
        cases fits with
        | action same => exact same call enough
        | @sequence _ _ _ steps same =>
            dsimp only
            rw [same call enough]
            cases links with
            | zero => rfl
            | succ links =>
                cases steps call with
                | error error => rfl
                | ok calls =>
                    calc
                      _ = calls.forM fun step =>
                          t.checkedDispatchWithin handlers links ⟨.plain step.1, step.2⟩ :=
                        forM_taken calls fun keyword operands =>
                          t.checkedDispatchWithin handlers links ⟨.plain keyword, operands⟩
                      _ = calls.forM fun step =>
                          ExceptT.lift (t.dispatchWithin links ⟨.plain step.1, step.2⟩) := by
                        simp only [ih links (Nat.lt_succ_self links)]
                      _ = _ := forM_lift _ calls

theorem Fit.checkedDispatch (fit : t.Fit handlers) (call : Call K) :
    t.checkedDispatch handlers call = ExceptT.lift (t.dispatch call) :=
  fit.checkedDispatchWithin _ call

end OperatorTable

/-! ### Handlers that access by index -/

namespace Operators

namespace Indexed

/-- The codes of a string, each with the bytes that spell it, cut off its front one by one. -/
def decode (font : Font K σ) (s : Bytes) : Except OutOfRange (List (UInt32 × Bytes)) :=
  match s with
  | [] => .ok []
  | b :: rest =>
    match slice (b :: rest) 0 (font.codeLength (b :: rest)) with
    | .error access => .error access
    | .ok raw =>
      match cut : slice (b :: rest) (font.codeLength (b :: rest)) (b :: rest).length with
      | .error access => .error access
      | .ok later => (decode font later).map (((font.readCode (b :: rest)).1, raw) :: ·)
termination_by s.length
decreasing_by
  have some := font.codeLength_pos (b :: rest)
  rw [length_of_slice cut, List.length_cons]
  omega

theorem codeLength_le (font : Font K σ) (b : UInt8) (rest : Bytes) :
    font.codeLength (b :: rest) ≤ (b :: rest).length :=
  Nat.max_le.mpr ⟨Nat.succ_le_succ (Nat.zero_le _), Nat.min_le_right _ _⟩

/-- A code is no longer than what is left of the string. -/
theorem decode_eq (font : Font K σ) (s : Bytes) : decode font s = .ok (font.decode s) := by
  fun_induction Font.decode font s with
  | case1 => rw [decode]
  | case2 b rest n ih =>
      have within := codeLength_le font b rest
      rw [decode, slice_take within]
      dsimp only
      split
      next failed => cases (slice_drop within).symm.trans failed
      next later cut =>
        cases (slice_drop within).symm.trans cut
        rw [ih]
        rfl

variable [Scalar K]

/-- A matrix of the first six numbers of a vector. -/
def matrix (v : List K) : Except OutOfRange (Matrix K) := do
  return ⟨← elementAt v 0, ← elementAt v 1, ← elementAt v 2, ← elementAt v 3, ← elementAt v 4,
    ← elementAt v 5⟩

def concatMatrix (call : Call K) : CheckedAction K σ Unit := do
  let v ← ExceptT.lift (Action.ofExcept (call.numbers 6))
  let m : Matrix K ← matrix v
  ExceptT.lift (Action.updateState fun s => s.concat m)

def setTextMatrix (call : Call K) : CheckedAction K σ Unit := do
  let v ← ExceptT.lift (Action.ofExcept (call.numbers 6))
  let m : Matrix K ← matrix v
  ExceptT.lift (updateTextObject call.keyword fun t => t.setMatrix m)

def appendRectangle (call : Call K) : CheckedAction K σ Unit := do
  let v ← ExceptT.lift (Action.ofExcept (call.numbers 4))
  let x : K ← elementAt v 0
  let y : K ← elementAt v 1
  let w : K ← elementAt v 2
  let h : K ← elementAt v 3
  let ctm := (← ExceptT.lift Action.state).ctm
  let p := ctm.applyPoint ⟨x, y⟩
  let q := ctm.applyPoint ⟨x + w, y⟩
  let r := ctm.applyPoint ⟨x + w, y + h⟩
  let s := ctm.applyPoint ⟨x, y + h⟩
  ExceptT.lift (construct (fun b => b.quad p q r s) (.rectangle p q r s))

/-- Selects a device space and a colour in it, whose components are the first operands. -/
def setDevice (target : PaintTarget) (space : ColorSpace) (call : Call K) :
    CheckedAction K σ Unit := do
  let operands : List (Operand K) ← slice call.operands 0 space.componentCount
  let components ← ExceptT.lift (Action.ofExcept (colorComponents call.keyword 0 operands))
  ExceptT.lift (Action.updateState fun s => setSpaceIn s space (space.color components) target)

def nextLineShowText (call : Call K) :
    Except OperatorError (List (String × Except OutOfRange (List (Operand K)))) :=
  .ok [("T*", .ok []), ("Tj", slice call.operands 0 1)]

def nextLineShowTextSpaced (call : Call K) :
    Except OperatorError (List (String × Except OutOfRange (List (Operand K)))) :=
  .ok [("Tw", slice call.operands 0 1), ("Tc", slice call.operands 1 2),
    ("'", slice call.operands 2 3)]

/-- The vector that a matrix is read as has six numbers. -/
theorem matrix_of_numbers (call : Call K) (f : Matrix K → CheckedAction K σ Unit) :
    (do
      let v ← ExceptT.lift (Action.ofExcept (call.numbers 6))
      let m : Matrix K ← matrix v
      f m) = ExceptT.lift (Action.ofExcept call.matrix) >>= f := by
  have vector : call.numbers 6 = (do
      return [← call.number 0, ← call.number 1, ← call.number 2, ← call.number 3,
        ← call.number 4, ← call.number 5]) := rfl
  rw [vector, Call.matrix]
  cases call.number 0 with
  | error e => rfl
  | ok a =>
  cases call.number 1 with
  | error e => rfl
  | ok b =>
  cases call.number 2 with
  | error e => rfl
  | ok c =>
  cases call.number 3 with
  | error e => rfl
  | ok d =>
  cases call.number 4 with
  | error e => rfl
  | ok e =>
  cases call.number 5 with
  | error e => rfl
  | ok f => rfl

theorem concatMatrix_eq (call : Call K) :
    concatMatrix (σ := σ) call = ExceptT.lift (do
      Action.updateState (← Action.ofExcept (Operators.concatMatrix call))) := by
  rw [concatMatrix, matrix_of_numbers, Operators.concatMatrix]
  cases call.matrix <;> rfl

theorem setTextMatrix_eq (call : Call K) :
    setTextMatrix (σ := σ) call = ExceptT.lift (Operators.setTextMatrix call) := by
  rw [setTextMatrix, matrix_of_numbers, Operators.setTextMatrix, lift_bind]

/-- The vector that a rectangle is read as has four numbers. -/
theorem appendRectangle_eq (call : Call K) :
    appendRectangle (σ := σ) call = ExceptT.lift (Operators.appendRectangle call) := by
  have vector : call.numbers 4 = (do
      return [← call.number 0, ← call.number 1, ← call.number 2, ← call.number 3]) := rfl
  rw [appendRectangle, Operators.appendRectangle, vector]
  cases call.number 0 with
  | error e => rfl
  | ok x =>
  cases call.number 1 with
  | error e => rfl
  | ok y =>
  cases call.number 2 with
  | error e => rfl
  | ok w =>
  cases call.number 3 with
  | error e => rfl
  | ok h => rfl

/-- A device operator asks for as many operands as its space has components. -/
theorem fits_setDevice (keyword : String) (target : PaintTarget) (space : ColorSpace) :
    CheckedHandler.Fits (K := K) (σ := σ) (.action (setDevice target space))
      (deviceSetter keyword target space) := by
  refine .action fun call enough => ?_
  rw [setDevice, slice_take enough, checked_ok_bind]
  dsimp only
  cases colorComponents call.keyword 0 (call.operands.take space.componentCount) <;> rfl

omit [Scalar K] in
/-- The string that is shown after the line has been changed is the first operand, which the table
asks for. -/
theorem fits_nextLineShowText :
    CheckedHandler.Fits (K := K) (σ := σ) (.sequence nextLineShowText)
      (compound "'" 1 Operators.nextLineShowText) := by
  refine .sequence fun call enough => ?_
  rw [nextLineShowText, slice_take enough]
  rfl

-- Without the operand that the table asks for, the access is out of range.
example (op : Operator K) :
    nextLineShowText ⟨op, []⟩ = .ok [("T*", .ok []), ("Tj", .error ⟨0, 1, 0⟩)] := rfl

omit [Scalar K] in
theorem slice_one {α : Type} {items : List α} {start : Nat} (within : start + 1 ≤ items.length) :
    slice items start (start + 1) = .ok ((items.drop start).take 1) := by
  rw [slice_of_le (Nat.le_add_right start 1) within, List.drop_take, Nat.add_sub_cancel_left]

omit [Scalar K] in
theorem fits_nextLineShowTextSpaced :
    CheckedHandler.Fits (K := K) (σ := σ) (.sequence nextLineShowTextSpaced)
      (compound "\"" 3 Operators.nextLineShowTextSpaced) := by
  refine .sequence fun call enough => ?_
  have two := Nat.le_of_succ_le enough
  have one := Nat.le_of_succ_le two
  rw [nextLineShowTextSpaced, slice_take one, slice_one two, slice_one enough]
  rfl

/-- Shows a string, whose codes are cut off its front. -/
def showString (keyword : String) (bytes : Bytes) : CheckedAction K σ Unit := do
  let _ ← ExceptT.lift (textObject keyword)
  match (← ExceptT.lift Action.state).text.font with
  | some font => do
    let codes : List (UInt32 × Bytes) ← decode font bytes
    ExceptT.lift (showCodes keyword font codes)
  | none => do
    ExceptT.lift (Action.warnAt keyword .textState "text shown before any font was selected")
    let codes : List (UInt32 × Bytes) ← decode (Font.fallback (K := K) (σ := σ)) bytes
    ExceptT.lift (showCodes keyword Font.fallback codes)

def showText (call : Call K) : CheckedAction K σ Unit := do
  showString call.keyword (← ExceptT.lift (Action.ofExcept (call.string 0)))

/-- Shows strings and moves by numbers, in order, starting with the element at `index`. -/
def showElements (call : Call K) (index : Nat) : List (Operand K) → CheckedAction K σ Unit
  | [] => pure ()
  | v :: rest => do
    match v with
    | .literal bytes => showString call.keyword bytes
    | .hexadecimal bytes => showString call.keyword bytes
    | .integer i => ExceptT.lift (showElements.adjust call (Scalar.ofInt i))
    | .real x => ExceptT.lift (showElements.adjust call x)
    | other => ExceptT.lift (throw (call.invalid index "string or number" other))
    showElements call (index + 1) rest

def showTextAdjusted (call : Call K) : CheckedAction K σ Unit := do
  let items ← ExceptT.lift (Action.ofExcept (call.array 0))
  let _ ← ExceptT.lift (textObject call.keyword)
  showElements call 0 items

theorem showString_eq (keyword : String) (bytes : Bytes) :
    showString (K := K) (σ := σ) keyword bytes =
      ExceptT.lift (Operators.showString keyword bytes) := by
  simp only [showString, Operators.showString, lift_bind, decode_eq, checked_ok_bind]
  congr
  funext object
  congr
  funext state
  cases state.text.font with
  | some font => rfl
  | none => exact (lift_bind _ _).symm

theorem showElements_eq (call : Call K) (index : Nat) (items : List (Operand K)) :
    showElements (σ := σ) call index items =
      ExceptT.lift (Operators.showElements call index items) := by
  induction items generalizing index with
  | nil => rfl
  | cons v rest ih =>
      unfold showElements Operators.showElements
      simp only [ih, showString_eq]
      cases v <;> exact (lift_bind _ _).symm

theorem showTextAdjusted_eq (call : Call K) :
    showTextAdjusted (σ := σ) call = ExceptT.lift (Operators.showTextAdjusted call) := by
  simp only [showTextAdjusted, Operators.showTextAdjusted, lift_bind, showElements_eq]

theorem showText_eq (call : Call K) :
    showText (σ := σ) call = ExceptT.lift (Operators.showText call) := by
  simp only [showText, Operators.showText, lift_bind, showString_eq]

/-! ### The built-in tables -/

/-- The handlers of both tables that access by index. -/
def sharedHandlers : CheckedHandlers K σ :=
  [("cm", .action concatMatrix), ("Tm", .action setTextMatrix), ("Tj", .action showText),
    ("TJ", .action showTextAdjusted), ("'", .sequence nextLineShowText),
    ("\"", .sequence nextLineShowTextSpaced)]

/-- The handlers of painting operators that access by index. -/
def paintingHandlers : CheckedHandlers K σ :=
  [("re", .action appendRectangle), ("G", .action (setDevice .stroke .deviceGray)),
    ("g", .action (setDevice .fill .deviceGray)), ("RG", .action (setDevice .stroke .deviceRGB)),
    ("rg", .action (setDevice .fill .deviceRGB)), ("K", .action (setDevice .stroke .deviceCMYK)),
    ("k", .action (setDevice .fill .deviceCMYK))]

/-- Each handler stands in for one of the entries. -/
def StandIn (handlers : CheckedHandlers K σ) (entries : List (TableEntry K (Action K σ))) : Prop :=
  ∀ x ∈ handlers, ∃ e ∈ entries, e.keyword = x.1 ∧ x.2.Fits e

omit [Scalar K] in
theorem StandIn.fit {handlers : CheckedHandlers K σ} {entries : List (TableEntry K (Action K σ))}
    {t : ContentTable K σ} (each : StandIn handlers entries)
    (finds : ∀ e ∈ entries, t.find? e.keyword = some e) : t.Fit handlers := by
  intro x mem e found
  obtain ⟨e', listed, key, fits⟩ := each x mem
  rw [← key, finds e' listed] at found
  cases found
  exact fits

theorem standIn_shared : StandIn (K := K) (σ := σ) sharedHandlers sharedEntries := by
  simp only [StandIn, sharedHandlers, List.forall_mem_cons]
  refine ⟨?_, ?_, ?_, ?_, ?_, ?_, List.forall_mem_nil _⟩
  · exact ⟨setter "cm" 6 Operators.concatMatrix, by simp [sharedEntries, stateEntries], rfl,
      .action fun call _ => concatMatrix_eq call⟩
  · exact ⟨entry "Tm" 6 Operators.setTextMatrix, by simp [sharedEntries, textStateEntries], rfl,
      .action fun call _ => setTextMatrix_eq call⟩
  · exact ⟨entry "Tj" 1 Operators.showText, by simp [sharedEntries, textShowingEntries], rfl,
      .action fun call _ => showText_eq call⟩
  · exact ⟨entry "TJ" 1 Operators.showTextAdjusted, by simp [sharedEntries, textShowingEntries],
      rfl, .action fun call _ => showTextAdjusted_eq call⟩
  · exact ⟨_, by simp [sharedEntries, textShowingEntries], rfl, fits_nextLineShowText⟩
  · exact ⟨_, by simp [sharedEntries, textShowingEntries], rfl, fits_nextLineShowTextSpaced⟩

theorem standIn_painting : StandIn (K := K) (σ := σ) paintingHandlers paintingEntries := by
  have color {e : TableEntry K (Action K σ)} (mem : e ∈ colorEntries) : e ∈ paintingEntries :=
    List.mem_append_right _ mem
  simp only [StandIn, paintingHandlers, List.forall_mem_cons]
  refine ⟨?_, ?_, ?_, ?_, ?_, ?_, ?_, List.forall_mem_nil _⟩
  · exact ⟨entry "re" 4 Operators.appendRectangle,
      by simp [paintingEntries, pathConstructionEntries], rfl,
      .action fun call _ => appendRectangle_eq call⟩
  all_goals exact ⟨_, color (by simp [colorEntries]), rfl, fits_setDevice ..⟩

theorem fit_text : (textTable (K := K) (σ := σ)).Fit sharedHandlers :=
  standIn_shared.fit fun _ mem => find?_of_mem_sharedEntries (.inr rfl) mem

theorem fit_graphics :
    (graphicsTable (K := K) (σ := σ)).Fit (sharedHandlers ++ paintingHandlers) := by
  have standIn : StandIn (K := K) (σ := σ) (sharedHandlers ++ paintingHandlers)
      (sharedEntries ++ paintingEntries) := by
    intro x mem
    rcases List.mem_append.mp mem with shared | painting
    · obtain ⟨e, listed, fits⟩ := standIn_shared x shared
      exact ⟨e, List.mem_append_left _ listed, fits⟩
    · obtain ⟨e, listed, fits⟩ := standIn_painting x painting
      exact ⟨e, List.mem_append_right _ listed, fits⟩
  exact standIn.fit fun _ mem => find?_graphicsTable_of_mem mem

end Indexed

end Operators

end PdfContent
