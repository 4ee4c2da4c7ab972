import PdfContent.Proofs.ShownText

/-!
# What is left of a compound text operator that fails

The operators "TD", "'" and "\"" stand for others, which are carried out one after another. Each of
these checks its own operands and looks for a text object by itself. So an operator that fails half
way has done what stands before the step that fails, and `remainder` says what that is: the leading,
the spacing and the next line may have been set already, but nothing has been told to the device.
-/

namespace PdfContent

variable {K σ : Type} [Scalar K]

namespace RunState

/-- The state with another text state. -/
def updateText (s : RunState K σ) (f : TextState K σ → TextState K σ) : RunState K σ :=
  s.updateContext fun c => c.updateState fun t => { t with text := f t.text }

/-- The state at the start of the next line. Without a text object there are no lines. -/
def nextLine (s : RunState K σ) : RunState K σ :=
  match s.text with
  | some object => s.withText (object.moveLine 0 (-s.state.text.leading))
  | none => s

end RunState

namespace Operators

/-- What a compound text operator that fails has made of the state. -/
def remainder (call : Call K) (s : RunState K σ) : RunState K σ :=
  match call.operator.keyword, call.operands with
  | "TD", _ :: ty :: _ =>
    match ty.number? with
    | some ty => s.updateText fun t => { t with leading := -ty }
    | none => s
  | "'", _ :: _ => s.nextLine
  | "\"", wordSpacing :: charSpacing :: _ :: _ =>
    match wordSpacing.number?, charSpacing.number? with
    | none, _ => s
    | some wordSpacing, none => s.updateText fun t => { t with wordSpacing }
    | some wordSpacing, some charSpacing =>
      (s.updateText fun t => { t with wordSpacing, charSpacing }).nextLine
  | _, _ => s

/-- If an operator fails, and not by a fault in the content of a glyph, it has told nothing and left
a certain state. -/
def Leaves (left : RunState K σ) (o : Outcome OperatorError K σ Unit) : Prop :=
  ∀ e, o.result = .error e → e.fault? = none → o = ⟨.error e, left, []⟩

omit [Scalar K] in
theorem Leaves.error {left : RunState K σ} (e : OperatorError) :
    Leaves left ⟨.error e, left, []⟩ := by
  rintro _ ⟨⟩ _
  rfl

omit [Scalar K] in
theorem Leaves.of_ok {left : RunState K σ} {o : Outcome OperatorError K σ Unit}
    (succeeds : o.result = .ok ()) : Leaves left o :=
  fun _ failed => by cases succeeds.symm.trans failed

/-- What shows its glyphs unless there is a fault does not fail otherwise. -/
theorem Leaves.of_shown {s left : RunState K σ} {object : TextObject K}
    {glyphs : List (GlyphEvent K σ)} {amounts : List K} {o : Outcome OperatorError K σ Unit}
    (shown : ShownOrFault s object glyphs amounts (.ok ()) o) : Leaves left o := by
  rcases shown with ⟨cause, fatal⟩ | ⟨succeeds, -, -⟩
  · intro e failed noFault
    cases fatal.symm.trans failed
    cases noFault
  · exact .of_ok succeeds

section Operands

variable (operator : Operator K) (v w : Operand K) (rest : List (Operand K))

theorem number_cons :
    (⟨operator, v :: rest⟩ : Call K).number 0 =
      match v.number? with
      | some x => .ok x
      | none => .error (.invalidOperand operator.keyword 0 "number" v.typeName) := rfl

theorem number_cons_cons :
    (⟨operator, v :: w :: rest⟩ : Call K).number 1 =
      match w.number? with
      | some x => .ok x
      | none => .error (.invalidOperand operator.keyword 1 "number" w.typeName) := rfl

omit [Scalar K] in
theorem string_cons :
    (⟨operator, v :: rest⟩ : Call K).string 0 =
      match v.bytes? with
      | some bytes => .ok bytes
      | none => .error (.invalidOperand operator.keyword 0 "string" v.typeName) := by
  cases v <;> rfl

end Operands

section Entries

theorem mem_setCharSpacing : textSetter "Tc" (fun charSpacing t => { t with charSpacing }) ∈
    sharedEntries (K := K) (σ := σ) := by
  simp [sharedEntries, textStateEntries]

theorem mem_setWordSpacing : textSetter "Tw" (fun wordSpacing t => { t with wordSpacing }) ∈
    sharedEntries (K := K) (σ := σ) := by
  simp [sharedEntries, textStateEntries]

theorem mem_setLeading : textSetter "TL" (fun leading t => { t with leading }) ∈
    sharedEntries (K := K) (σ := σ) := by
  simp [sharedEntries, textStateEntries]

theorem mem_moveText : entry "Td" 2 moveText ∈ sharedEntries (K := K) (σ := σ) := by
  simp [sharedEntries, textStateEntries]

theorem mem_moveTextSetLeading :
    compound "TD" 2 moveTextSetLeading ∈ sharedEntries (K := K) (σ := σ) := by
  simp [sharedEntries, textStateEntries]

theorem mem_nextLine : entry "T*" 0 nextLine ∈ sharedEntries (K := K) (σ := σ) := by
  simp [sharedEntries, textStateEntries]

theorem mem_showText : entry "Tj" 1 showText ∈ sharedEntries (K := K) (σ := σ) := by
  simp [sharedEntries, textShowingEntries]

theorem mem_nextLineShowText :
    compound "'" 1 nextLineShowText ∈ sharedEntries (K := K) (σ := σ) := by
  simp [sharedEntries, textShowingEntries]

theorem mem_nextLineShowTextSpaced :
    compound "\"" 3 nextLineShowTextSpaced ∈ sharedEntries (K := K) (σ := σ) := by
  simp [sharedEntries, textShowingEntries]

end Entries

section Steps

variable {r : RunSettings K σ} {scope : σ} {nested : NestedRun K σ} {s left : RunState K σ}
  {t : ContentTable K σ}

omit [Scalar K] in
/-- After a step that succeeds, what is left is what the next step leaves. -/
theorem Leaves.next {x y : Action K σ Unit} {s' : RunState K σ}
    (first : x.run (r.environment scope) nested s = ⟨.ok (), s', []⟩)
    (second : Leaves left (y.run (r.environment scope) nested s')) :
    Leaves left ((x >>= fun _ => y).run (r.environment scope) nested s) := by
  rw [Action.run_bind, first]
  exact second

omit [Scalar K] in
/-- After a step that fails nothing else is done. -/
theorem Leaves.stop {x y : Action K σ Unit} {e : OperatorError}
    (first : x.run (r.environment scope) nested s = ⟨.error e, s, []⟩) :
    Leaves s ((x >>= fun _ => y).run (r.environment scope) nested s) := by
  rw [Action.run_bind, first]
  exact .error e

variable (standard : IsStandard t)

include standard

theorem run_textSetter {keyword : String} {set : K → TextState K σ → TextState K σ}
    (mem : textSetter keyword set ∈ sharedEntries) (links : Nat) {v : Operand K} {x : K}
    (given : v.number? = some x) (rest : List (Operand K)) :
    (t.dispatchWithin links ⟨.plain keyword, v :: rest⟩).run (r.environment scope) nested s =
      ⟨.ok (), s.updateText (set x), []⟩ := by
  rw [dispatchWithin_shared standard mem rfl (Nat.le_add_left 1 _)]
  simp only [number_cons, given]
  rfl

theorem run_textSetter_of_none {keyword : String} {set : K → TextState K σ → TextState K σ}
    (mem : textSetter keyword set ∈ sharedEntries) (links : Nat) {v : Operand K}
    (other : v.number? = none) (rest : List (Operand K)) :
    (t.dispatchWithin links ⟨.plain keyword, v :: rest⟩).run (r.environment scope) nested s =
      ⟨.error (.invalidOperand keyword 0 "number" v.typeName), s, []⟩ := by
  rw [dispatchWithin_shared standard mem rfl (Nat.le_add_left 1 _)]
  simp only [number_cons, other]
  rfl

theorem leaves_moveText (links : Nat) (x y : Operand K) (rest : List (Operand K)) :
    Leaves s ((t.dispatchWithin links ⟨.plain "Td", x :: y :: rest⟩).run (r.environment scope)
      nested s) := by
  rw [dispatchWithin_shared standard mem_moveText rfl (Nat.le_add_left 2 _), moveText, number_cons,
    number_cons_cons]
  cases x.number? with
  | none => exact .error _
  | some tx =>
    cases y.number? with
    | none => exact .error _
    | some ty =>
      rw [Action.run_ok_bind, Action.run_ok_bind]
      cases opened : s.text with
      | none =>
          rw [run_updateTextObject_of_none opened]
          exact .error _
      | some object =>
          rw [run_updateTextObject opened]
          exact .of_ok rfl

theorem run_nextLine {object : TextObject K} (opened : s.text = some object) (links : Nat) :
    (t.dispatchWithin links ⟨.plain "T*", []⟩).run (r.environment scope) nested s =
      ⟨.ok (), s.nextLine, []⟩ := by
  rw [dispatchWithin_shared standard mem_nextLine rfl (Nat.zero_le _), nextLine,
    Action.run_state_bind,
    run_updateTextObject opened, RunState.nextLine, opened]
  rfl

/-- Moving to the next line fails without a text object, and then changes nothing. -/
theorem run_nextLine_of_none (closed : s.text = none) (links : Nat) :
    (t.dispatchWithin links ⟨.plain "T*", []⟩).run (r.environment scope) nested s =
      ⟨.error (.outsideTextObject "T*"), s, []⟩ := by
  rw [dispatchWithin_shared standard mem_nextLine rfl (Nat.zero_le _), nextLine,
    Action.run_state_bind,
    run_updateTextObject_of_none closed]
  rfl

/-- Showing a string within a text object fails only by a fault, or if there is no string. -/
theorem leaves_showText (restores : nested.Restores) (hides : nested.Hides)
    {object : TextObject K} (opened : s.text = some object) (links : Nat) (v : Operand K) :
    Leaves s ((t.dispatchWithin links ⟨.plain "Tj", [v]⟩).run (r.environment scope) nested s) := by
  rw [dispatchWithin_shared standard mem_showText rfl (Nat.le_add_left 1 _), showText, string_cons]
  cases v.bytes? with
  | none => exact .error _
  | some bytes => exact .of_shown (shown_showString restores hides "Tj" bytes opened)

theorem leaves_nextLineShowText (restores : nested.Restores) (hides : nested.Hides)
    (operator : Operator K) (keyword : operator.keyword = "'") (links : Nat) (v : Operand K)
    (rest : List (Operand K)) :
    Leaves s.nextLine ((t.dispatchWithin (links + 1) ⟨operator, v :: rest⟩).run
      (r.environment scope) nested s) := by
  rw [dispatchWithin_shared_of_sequence standard mem_nextLineShowText keyword (Nat.le_add_left 1 _)]
  simp only [nextLineShowText, List.forM_eq_forM, List.forM_cons, List.forM_nil,
    List.take_succ_cons, List.take_zero, bind_pure_unit]
  cases opened : s.text with
  | none =>
      have same : s.nextLine = s := by
        rw [RunState.nextLine, opened]
      rw [same]
      exact .stop (run_nextLine_of_none standard opened links)
  | some object =>
      refine .next (run_nextLine standard opened links) ?_
      have next : s.nextLine.text = some (object.moveLine 0 (-s.state.text.leading)) := by
        rw [RunState.nextLine, opened]
        rfl
      exact leaves_showText standard restores hides next links v

theorem leaves_moveTextSetLeading (operator : Operator K) (keyword : operator.keyword = "TD")
    (links : Nat) (x y : Operand K) (rest : List (Operand K)) :
    Leaves (remainder ⟨operator, x :: y :: rest⟩ s)
      ((t.dispatchWithin (links + 1) ⟨operator, x :: y :: rest⟩).run (r.environment scope)
        nested s) := by
  have left : remainder ⟨operator, x :: y :: rest⟩ s =
      match y.number? with
      | some ty => s.updateText fun t => { t with leading := -ty }
      | none => s := by
    simp only [remainder, keyword]
  rw [left, dispatchWithin_shared_of_sequence standard mem_moveTextSetLeading keyword
    (Nat.le_add_left 2 _), moveTextSetLeading, number_cons_cons]
  cases y.number? with
  | none => exact .error _
  | some ty =>
      change Leaves _ (Action.run _ _ (List.forM [_, _] _) s)
      simp only [List.forM_eq_forM, List.forM_cons, List.forM_nil, bind_pure_unit]
      refine .next (run_textSetter standard mem_setLeading links (v := .real (-ty)) rfl []) ?_
      exact leaves_moveText standard links x y rest

theorem leaves_nextLineShowTextSpaced (restores : nested.Restores) (hides : nested.Hides)
    (operator : Operator K) (keyword : operator.keyword = "\"") (links : Nat)
    (word char v : Operand K) (rest : List (Operand K)) :
    Leaves (remainder ⟨operator, word :: char :: v :: rest⟩ s)
      ((t.dispatchWithin (links + 2) ⟨operator, word :: char :: v :: rest⟩).run
        (r.environment scope) nested s) := by
  have left : remainder ⟨operator, word :: char :: v :: rest⟩ s =
      match word.number?, char.number? with
      | none, _ => s
      | some wordSpacing, none => s.updateText fun t => { t with wordSpacing }
      | some wordSpacing, some charSpacing =>
        (s.updateText fun t => { t with wordSpacing, charSpacing }).nextLine := by
    simp only [remainder, keyword]
  rw [left, dispatchWithin_shared_of_sequence standard mem_nextLineShowTextSpaced keyword
    (Nat.le_add_left 3 _)]
  simp only [nextLineShowTextSpaced, List.forM_eq_forM, List.forM_cons, List.forM_nil,
    List.take_succ_cons, List.take_zero, List.drop_succ_cons, List.drop_zero, bind_pure_unit]
  cases spacing : word.number? with
  | none => exact .stop (run_textSetter_of_none standard mem_setWordSpacing (links + 1) spacing [])
  | some wordSpacing =>
    refine .next (run_textSetter standard mem_setWordSpacing (links + 1) spacing []) ?_
    cases spacing : char.number? with
    | none =>
        exact .stop (run_textSetter_of_none standard mem_setCharSpacing (links + 1) spacing [])
    | some charSpacing =>
        refine .next (run_textSetter standard mem_setCharSpacing (links + 1) spacing []) ?_
        exact leaves_nextLineShowText standard restores hides (.plain "'") rfl links v []

/-- Where a compound text operator has too few operands, nothing is left. -/
theorem leaves_few {e : TableEntry K (Action K σ)} (mem : e ∈ sharedEntries) {call : Call K}
    (same : call.operator.keyword = e.keyword) (few : call.operands.length < e.minOperands)
    (nothing : remainder call s = s) (links : Nat) :
    Leaves (remainder call s)
      ((t.dispatchWithin links call).run (r.environment scope) nested s) := by
  rw [dispatchWithin_shared_of_few standard mem same few, nothing, Action.run_throw]
  exact .error _

/-- A compound text operator that fails leaves what its steps before the one that fails have done. -/
theorem leaves_dispatch (restores : nested.Restores) (hides : nested.Hides) (call : Call K)
    (named : call.operator.keyword ∈ ["TD", "'", "\""]) :
    Leaves (remainder call s) ((t.dispatch call).run (r.environment scope) nested s) := by
  obtain ⟨links, enough⟩ : ∃ links, 3 * (call.operands.length + 1) = links + 2 :=
    ⟨3 * call.operands.length + 1, by omega⟩
  rw [OperatorTable.dispatch, enough]
  obtain ⟨operator, operands⟩ := call
  simp only [List.mem_cons, List.not_mem_nil, or_false] at named
  rcases named with keyword | keyword | keyword
  · rcases operands with _ | ⟨x, _ | ⟨y, rest⟩⟩
    · exact leaves_few standard mem_moveTextSetLeading keyword (by simp [compound])
        (by simp [remainder, keyword]) _
    · exact leaves_few standard mem_moveTextSetLeading keyword (by simp [compound])
        (by simp [remainder, keyword]) _
    · exact leaves_moveTextSetLeading standard operator keyword (links + 1) x y rest
  · rcases operands with _ | ⟨v, rest⟩
    · exact leaves_few standard mem_nextLineShowText keyword (by simp [compound])
        (by simp [remainder, keyword]) _
    · have left : remainder ⟨operator, v :: rest⟩ s = s.nextLine := by
        simp only [remainder, keyword]
      rw [left]
      exact leaves_nextLineShowText standard restores hides operator keyword (links + 1) v rest
  · rcases operands with _ | ⟨word, _ | ⟨char, _ | ⟨v, rest⟩⟩⟩
    · exact leaves_few standard mem_nextLineShowTextSpaced keyword (by simp [compound])
        (by simp [remainder, keyword]) _
    · exact leaves_few standard mem_nextLineShowTextSpaced keyword (by simp [compound])
        (by simp [remainder, keyword]) _
    · exact leaves_few standard mem_nextLineShowTextSpaced keyword (by simp [compound])
        (by simp [remainder, keyword]) _
    · exact leaves_nextLineShowTextSpaced standard restores hides operator keyword links word char
        v rest

end Steps

end Operators

namespace RunSettings

open Operators

/-- A compound text operator is not carried out as a whole or not at all. If it fails for its own
sake, nothing has been told to the device, and so no glyph has been shown. But of the state there is
left what the steps have made of it that come before the one that fails: the leading that "TD"
sets, the next line that "'" moves to, the spacing that "\"" sets and then the next line. -/
theorem standard_compound_leaves (r : RunSettings K σ) (standard : IsStandard r.table) (scope : σ)
    (levels : Nat) (call : Call K) (compound : call.operator.keyword ∈ ["TD", "'", "\""])
    (s : RunState K σ) (e : OperatorError) (noFault : e.fault? = none) :
    let o := (r.table.dispatch call).run (r.environment scope) (r.nestedRun levels) s
    o.result = .error e → o = ⟨.error e, remainder call s, []⟩ := by
  intro o failed
  exact leaves_dispatch standard (r.restores_nestedRun levels) (r.hides_nestedRun levels) call
    compound e failed noFault

/-- Spacing and line are set before it turns out that there is no string to show. -/
theorem standard_compound_leaves_spacing :
    let r : RunSettings Int Unit := graphics .standard .identity (.ofCatalogs fun _ => {})
    let call : Call Int := ⟨.plain "\"", [.integer 1, .integer 2, .name "x"]⟩
    let s : RunState Int Unit := (RunState.initial .identity).withText .initial
    let e : OperatorError := .invalidOperand "Tj" 0 "string" "name"
    let o := (r.table.dispatch call).run (r.environment ()) (r.nestedRun 1) s
    o.result = .error e ∧ o.state =
      (s.updateText fun t => { t with wordSpacing := 1, charSpacing := 2 }).nextLine := by
  intro r call s e o
  have failed : o.result = .error e := by decide +kernel
  refine ⟨failed, ?_⟩
  have left := standard_compound_leaves r (.inl rfl) () 1 call (by decide) s e rfl failed
  exact congrArg Outcome.state left

/-- With a name as its first operand "TD" fails, and the leading has changed all the same. -/
theorem graphics_moveTextSetLeading_partial :
    let r : RunSettings Int Unit := graphics .standard .identity (.ofCatalogs fun _ => {})
    let call : Call Int := ⟨.plain "TD", [.name "x", .integer 5]⟩
    let s : RunState Int Unit := (RunState.initial .identity).withText .initial
    let o := (r.table.dispatch call).run (r.environment ()) (r.nestedRun 1) s
    o.result = .error (.invalidOperand "Td" 0 "number" "name") ∧
      o.state.state.text.leading ≠ s.state.text.leading := by
  decide +kernel

end RunSettings

end PdfContent
