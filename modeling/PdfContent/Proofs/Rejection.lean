import PdfContent.Proofs.Running
import PdfContent.Scalar.Whole

/-!
# Rejected operators

An operator is rejected if its operands, its resources or the place where it stands are not as they
have to be. Nearly all operators of the table for painting find this out before they do anything, so
that a rejected one leaves the state as it was and tells the device nothing but warnings.

The argument watches an operator's action. Its standing is `untouched` up to the first change, the
first event that is no warning and the first nested stream, and `touched` from there on; an error
that rejects the operator has to come before. Nested streams end well, by a fault or at the depth
limit. The watch sees any answer, and `absurd` stands for those that no stream gives.

Operators that paint a path are run as a whole instead: they change the state first, and then
nothing in them is rejected.
-/

namespace PdfContent

variable {K σ α β : Type}

/-- An error about an operator's operands, its resources or the place where it stands. The others
are faults in the content of nested streams and the depth limit. -/
def OperatorError.IsRejection : OperatorError → Prop
  | .fatal _ => False
  | .recursionLimit _ => False
  | _ => True

instance : DecidablePred OperatorError.IsRejection := fun e => by
  cases e <;> unfold OperatorError.IsRejection <;> infer_instance

/-- What a nested stream answers rejects nothing. -/
def NestedRun.NeverRejects (nested : NestedRun K σ) : Prop :=
  ∀ content scope setup s e, (nested content scope setup s).result = .error e → ¬ e.IsRejection

theorem RunSettings.neverRejects_nestedRun [Scalar K] (r : RunSettings K σ) (levels : Nat) :
    (r.nestedRun levels).NeverRejects := by
  intro content scope setup s e failed
  by_cases limit : r.options.maxDepth ≤ s.depth
  · rw [nestedRun_of_limit _ _ _ _ _ limit] at failed
    cases failed
    exact id
  have below := Nat.not_le.mp limit
  cases levels with
  | zero =>
      simp only [nestedRun, limit, if_false] at failed
      cases failed
      exact id
  | succ levels =>
      rw [nestedRun_succ_of_lt _ _ _ _ _ below] at failed
      obtain ⟨cause, rfl⟩ : ∃ cause, OperatorError.fatal cause = e := by
        cases ended : (StreamSettings.run { r with scope, nested := r.nestedRun levels } content
          (s.enter setup)).result with
        | ok _ =>
            simp only [ended] at failed
            cases failed
        | error cause =>
            simp only [ended] at failed
            cases failed
            exact ⟨cause, rfl⟩
      exact id

/-- The entry is a warning. -/
def Entry.IsWarning : Entry K σ → Prop
  | .event (.warning _) => True
  | _ => False

/-- How far an operator has gone. -/
inductive Standing
  | untouched
  | touched
  /-- A nested stream has given an answer that none gives. -/
  | absurd
  deriving DecidableEq

namespace Standing

/-- The standing after a deed: only warnings leave an operator untouched. -/
def after : Standing → Deed K σ → Standing
  | .absurd, _ => .absurd
  | g, .tell _ (.warning _) => g
  | _, _ => .touched

@[simp] theorem after_absurd (deed : Deed K σ) : Standing.absurd.after deed = .absurd := rfl

/-- The standing after a nested stream. -/
def answered : Except OperatorError Unit → Standing
  | .ok _ => .touched
  | .error e => if e.IsRejection then .absurd else .touched

/-- What the standing says about what has been done since the context was `start`. -/
def Explains (start : Context K σ) : Standing → Context K σ → List (Entry K σ) → Prop
  | .untouched, c, log => c = start ∧ ∀ x ∈ log, x.IsWarning
  | .touched, _, _ => True
  | .absurd, _, _ => False

end Standing

/-- Watches an operator's standing. -/
def standing : Monitor K σ Standing where
  allows _ _ := True
  next := Standing.after
  answered _ := Standing.answered

theorem keeps_standing {nested : NestedRun K σ} (never : nested.NeverRejects) (depth : Nat)
    (start : Context K σ) :
    (standing (K := K) (σ := σ)).Keeps nested depth (Standing.Explains start) := by
  refine ⟨?_, ?_, ?_⟩
  · intro g log before after explains _
    cases g with
    | untouched => trivial
    | touched => trivial
    | absurd => exact explains.elim
  · intro g log c e explains _
    cases g with
    | touched => cases e <;> trivial
    | absurd => exact explains.elim
    | untouched =>
        obtain ⟨same, warnings⟩ := explains
        cases e with
        | warning w =>
            refine ⟨same, List.forall_mem_append.mpr ⟨warnings, ?_⟩⟩
            exact List.forall_mem_singleton.mpr trivial
        | _ => trivial
  · intro g log content scope setup s _ _ _
    change Standing.Explains start (Standing.answered _) _ _
    cases ended : (nested content scope setup s).result with
    | ok _ => trivial
    | error e =>
        rw [Standing.answered, if_neg (never content scope setup s e ended)]
        trivial

namespace Action

/-- After it has done something, an action is not rejected any more. `Q` holds of its value and of
the context after it. -/
def Refuses (env : Environment K σ) (g : Standing) (x : Action K σ α) (c : Context K σ)
    (Q : α → Context K σ → Prop) : Prop :=
  x.Obeys standing env (fun a _ c => Q a c) (fun e g _ => e.IsRejection → g ≠ .touched) g c

/-- An action is rejected, if at all, before it has done anything. -/
def RefusesWhole (env : Environment K σ) (x : Action K σ Unit) (c : Context K σ) : Prop :=
  x.Refuses env .untouched c fun _ _ => True

/-- An action is not rejected, whatever has been done before it. -/
def Accepts (env : Environment K σ) (x : Action K σ α) (c : Context K σ)
    (Q : α → Context K σ → Prop) : Prop :=
  ∀ g, x.Refuses env g c Q

section Rules

variable {env : Environment K σ} {c : Context K σ} {g : Standing} {Q : α → Context K σ → Prop}
  {R : β → Context K σ → Prop}

theorem Refuses.mono {Q' : α → Context K σ → Prop} {x : Action K σ α}
    (refuses : x.Refuses env g c Q) (weaker : ∀ a c, Q a c → Q' a c) : x.Refuses env g c Q' :=
  Obeys.mono refuses (fun a _ c => weaker a c) fun _ _ _ h => h

/-- After the first part the second one has to be accepted. -/
theorem Refuses.bind {x : Action K σ β} {f : β → Action K σ α} (first : x.Refuses env g c R)
    (second : ∀ b c', R b c' → (f b).Accepts env c' Q) : (x >>= f).Refuses env g c Q := by
  simp only [Refuses, obeys_bind]
  exact Obeys.mono first (fun b g c' h => second b c' h g) fun _ _ _ h => h

namespace Accepts

theorem pure {a : α} (value : Q a c) : (Pure.pure a : Action K σ α).Accepts env c Q :=
  fun _ => value

theorem bind {x : Action K σ β} {f : β → Action K σ α} (first : x.Accepts env c R)
    (second : ∀ b c', R b c' → (f b).Accepts env c' Q) : (x >>= f).Accepts env c Q :=
  fun g => (first g).bind second

theorem refusesWhole {x : Action K σ Unit} {Q : Unit → Context K σ → Prop}
    (accepts : x.Accepts env c Q) : x.RefusesWhole env c :=
  (accepts .untouched).mono fun _ _ _ => trivial

theorem environment {f : Environment K σ → Action K σ α} (next : (f env).Accepts env c Q) :
    (Action.environment >>= f).Accepts env c Q := next

theorem state {f : GraphicsState K σ → Action K σ α} (next : (f c.state).Accepts env c Q) :
    (Action.state >>= f).Accepts env c Q := next

theorem modify (h : Context K σ → Context K σ) {Q : Unit → Context K σ → Prop}
    (after : Q () (h c)) : (Action.modify h).Accepts env c Q :=
  fun _ => ⟨trivial, after⟩

theorem emit (e : Event K σ) {Q : Unit → Context K σ → Prop} (after : Q () c) :
    (Action.emit e).Accepts env c Q :=
  fun _ => ⟨trivial, after⟩

theorem warnError (keyword : String) (e : OperatorError) {Q : Unit → Context K σ → Prop}
    (after : Q () c) : (Action.warnError keyword e).Accepts env c Q := by
  intro g
  simp only [Refuses, Action.warnError, Action.warn, obeys_bind, obeys_environment]
  split
  · exact ⟨trivial, after⟩
  · exact after

end Accepts

namespace RefusesWhole

theorem throw (e : OperatorError) : (MonadExcept.throw e : Action K σ Unit).RefusesWhole env c :=
  fun _ => by decide

/-- Reads something that may be missing. -/
theorem read {result : Except OperatorError β} {f : β → Action K σ Unit}
    (next : ∀ b, (f b).RefusesWhole env c) : (ofExcept result >>= f).RefusesWhole env c := by
  cases result with
  | error e => exact throw e
  | ok b => exact next b

theorem environment {f : Environment K σ → Action K σ Unit} (next : (f env).RefusesWhole env c) :
    (Action.environment >>= f).RefusesWhole env c := next

theorem context {f : Context K σ → Action K σ Unit} (next : (f c).RefusesWhole env c) :
    (Action.context >>= f).RefusesWhole env c := next

theorem state {f : GraphicsState K σ → Action K σ Unit} (next : (f c.state).RefusesWhole env c) :
    (Action.state >>= f).RefusesWhole env c := next

/-- A warning leaves an operator untouched. -/
theorem warnAt {keyword description : String} {code : WarningCode} {x : Action K σ Unit}
    (next : x.RefusesWhole env c) :
    (Action.warnAt keyword code description >>= fun _ => x).RefusesWhole env c := by
  simp only [RefusesWhole, Refuses, Action.warnAt, Action.warn, obeys_bind, obeys_environment]
  split
  · exact ⟨trivial, next⟩
  · exact next

theorem modify (h : Context K σ → Context K σ) : (Action.modify h).RefusesWhole env c :=
  (Accepts.modify h (Q := fun _ _ => True) trivial).refusesWhole

theorem emit (e : Event K σ) : (Action.emit e).RefusesWhole env c :=
  (Accepts.emit e (Q := fun _ _ => True) trivial).refusesWhole

/-- A change that is told. -/
theorem modify_emit (h : Context K σ → Context K σ) (e : Event K σ) :
    (Action.modify h >>= fun _ => Action.emit e).RefusesWhole env c :=
  (Accepts.bind (.modify h (Q := fun _ _ => True) trivial)
    fun _ _ _ => .emit e (Q := fun _ _ => True) trivial).refusesWhole

end RefusesWhole

end Rules

/-- An action that leaves the context as it was leaves the whole state so. -/
theorem state_run_of_context {nested : NestedRun K σ} (restores : nested.Restores)
    {environment : RunState K σ → Environment K σ} {x : Action K σ α} {s : RunState K σ}
    (same : (x.run environment nested s).state.toContext = s.toContext) :
    (x.run environment nested s).state = s := by
  have place := place_run restores environment x s
  have level := sameLevel_run restores environment x s
  have index := congrArg Place.index place
  generalize (x.run environment nested s).state = t at *
  obtain ⟨_, depth, _, stash⟩ := t
  obtain ⟨rfl, rfl⟩ : depth = s.depth ∧ stash = s.stash := ⟨level.depth, level.stash⟩
  subst same
  subst index
  rfl

/-- What a run leaves of an operator that is rejected only before it has done anything. -/
theorem RefusesWhole.run {nested : NestedRun K σ} {environment : RunState K σ → Environment K σ}
    {env : Environment K σ} (restores : nested.Restores) (never : nested.NeverRejects)
    {s : RunState K σ} (stable : ∀ t, t.place = s.place → environment t = env)
    {x : Action K σ Unit} (refuses : x.RefusesWhole env s.toContext) {e : OperatorError}
    (failed : (x.run environment nested s).result = .error e) (rejected : e.IsRejection) :
    (x.run environment nested s).state = s ∧
      ∀ entry ∈ (x.run environment nested s).log, entry.IsWarning := by
  have start : Standing.Explains s.toContext .untouched s.toContext ([] : List (Entry K σ)) :=
    ⟨rfl, by simp⟩
  obtain ⟨g, explains, -, ends⟩ :=
    Obeys.run restores stable (keeps_standing never s.depth s.toContext) start refuses
  have standing := ends e failed rejected
  cases g with
  | untouched => exact ⟨state_run_of_context restores explains.1, explains.2⟩
  | touched => exact absurd rfl standing
  | absurd => exact explains.elim

end Action

namespace Operators

open PdfContent.Action

variable [Scalar K] {env : Environment K σ} {c : Context K σ}

/-! ### Each operator -/

omit [Scalar K] in
theorem refusesWhole_textObject {keyword : String} {f : TextObject K → Action K σ Unit}
    (next : ∀ object, c.text = some object → (f object).RefusesWhole env c) :
    (textObject keyword >>= f).RefusesWhole env c := by
  simp only [RefusesWhole, Refuses, textObject, obeys_bind, obeys_context]
  cases opened : c.text with
  | none => exact fun _ => by decide
  | some object => exact next object opened

omit [Scalar K] in
theorem refusesWhole_updateTextObject (keyword : String) (f : TextObject K → TextObject K) :
    (updateTextObject keyword f).RefusesWhole env c :=
  refusesWhole_textObject fun _ _ => .modify _

/-! ### Showing text -/

omit [Scalar K] in
theorem accepts_updateTextObject (keyword : String) (f : TextObject K → TextObject K)
    (opened : c.text.isSome) :
    (updateTextObject keyword f).Accepts env c fun _ c => c.text.isSome := by
  obtain ⟨object, opened⟩ := Option.isSome_iff_exists.mp opened
  intro g
  simp only [Refuses, updateTextObject, textObject, obeys_bind, obeys_context, opened, obeys_pure]
  exact ⟨trivial, rfl⟩

omit [Scalar K] in
/-- A glyph procedure may fail, but that rejects nothing. -/
theorem accepts_showGlyph (keyword : String) (glyph : GlyphEvent K σ) (opened : c.text.isSome) :
    (showGlyph keyword glyph).Accepts env c fun _ c => c.text.isSome := by
  refine .state (.bind (R := fun _ c' => c' = c) (.emit _ rfl) ?_)
  rintro _ c' rfl
  refine .environment ?_
  split
  · split
    · exact .pure opened
    · intro g
      simp only [Refuses, obeys_handle, obeys_nested, obeys_ofExcept]
      refine ⟨trivial, fun answer => ⟨fun _ _ => opened, fun e _ => ?_⟩⟩
      cases e with
      | fatal cause => exact fun rejected => rejected.elim
      | _ => exact Accepts.warnError keyword _ opened _
  · exact .pure opened

/-- Codes are shown without being rejected as long as a text object is open, and it stays open. -/
theorem accepts_showCodes (keyword : String) (font : Font K σ) (codes : List (UInt32 × Bytes))
    (opened : c.text.isSome) :
    (showCodes keyword font codes).Accepts env c fun _ c => c.text.isSome := by
  induction codes generalizing c with
  | nil => exact .pure opened
  | cons code rest ih =>
      obtain ⟨object, here⟩ := Option.isSome_iff_exists.mp opened
      have reads : (textObject keyword).Accepts env c fun _ c' => c' = c := by
        intro g
        simp only [Refuses, textObject, obeys_bind, obeys_context, here, obeys_pure]
      rw [showCodes]
      refine .bind reads ?_
      rintro object c' rfl
      refine .state (.bind (accepts_showGlyph keyword _ opened) fun _ c' opened => ?_)
      refine .bind (accepts_updateTextObject keyword _ opened) fun _ c' opened => ?_
      exact ih opened

theorem refusesWhole_showText (call : Call K) : (showText call).RefusesWhole env c := by
  refine .read fun bytes => refusesWhole_textObject fun object opened => .state ?_
  have opened : c.text.isSome := Option.isSome_iff_exists.mpr ⟨object, opened⟩
  split
  · exact (accepts_showCodes _ _ _ opened).refusesWhole
  · exact .warnAt (accepts_showCodes _ _ _ opened).refusesWhole

/-! ### Forms, images and marked content -/

theorem refusesWhole_showForm (name : String) (form : Form K σ) :
    (showForm name form).RefusesWhole env c := by
  simp only [RefusesWhole, Refuses, showForm, checkDepth, obeys_bind, obeys_environment]
  split
  · exact fun rejected => rejected.elim
  · simp only [obeys_pure, obeys_state, obeys_emit, obeys_andFinally, obeys_nested, obeys_ofExcept]
    refine ⟨trivial, trivial, fun answer => ⟨fun _ _ => ⟨trivial, trivial⟩, ?_⟩⟩
    rintro e rfl
    refine ⟨trivial, fun rejected => ?_⟩
    change (Standing.answered (.error e)).after _ ≠ .touched
    rw [Standing.answered, if_pos rejected, Standing.after_absurd]
    decide

omit [Scalar K] in
theorem refusesWhole_drawImage (name : Option String) (image : Image)
    (inline : Option (InlineImage K)) : (drawImage name image inline).RefusesWhole env c :=
  .state (.emit _)

theorem refusesWhole_invoke (call : Call K) : (invoke call).RefusesWhole env c := by
  refine .read fun name => .environment (.read fun object => ?_)
  cases object with
  | form form => exact refusesWhole_showForm name form
  | image image => exact refusesWhole_drawImage _ _ _
  | postScript => exact (Accepts.pure (Q := fun _ _ => True) trivial).refusesWhole

theorem refusesWhole_showInlineImage (call : Call K) :
    (showInlineImage call).RefusesWhole env c := by
  rw [showInlineImage]
  split
  · exact .throw _
  · exact .environment (refusesWhole_drawImage _ _ _)

/-! ### Paths and colours -/

theorem refusesWhole_devicePoint {call : Call K} {index : Nat} {f : Point K → Action K σ Unit}
    (next : ∀ p, (f p).RefusesWhole env c) : (devicePoint call index >>= f).RefusesWhole env c := by
  rw [devicePoint, bind_assoc]
  refine .read fun x => ?_
  rw [bind_assoc]
  exact .read fun y => next _

omit [Scalar K] in
theorem refusesWhole_construct (f : PathBuilder K → PathBuilder K) (e : Event K σ) :
    (construct f e).RefusesWhole env c :=
  .modify_emit _ e

omit [Scalar K] in
theorem refusesWhole_fromCurrentPoint (keyword : String) (stop : Point K)
    {f : Point K → Action K σ Unit} (next : ∀ p, (f p).RefusesWhole env c) :
    (fromCurrentPoint keyword stop f).RefusesWhole env c := by
  refine .context ?_
  split
  · exact next _
  · exact .warnAt (refusesWhole_construct _ _)

/-! ### The table -/

/-- The entry has an action of its own that is rejected only before it has done anything. -/
def RefusesWhole (e : TableEntry K (Action K σ)) : Prop :=
  ∃ run, e.handler = .action run ∧ ∀ env c call, (run call).RefusesWhole env c

omit [Scalar K] in
theorem refusesWhole_entry {keyword : String} {minOperands : Nat} {run : Call K → Action K σ Unit}
    (refuses : ∀ env c call, (run call).RefusesWhole env c) :
    RefusesWhole (entry keyword minOperands run) := ⟨run, rfl, refuses⟩

omit [Scalar K] in
theorem refusesWhole_ignored (keyword : String) (minOperands : Nat) :
    RefusesWhole (ignored (K := K) (σ := σ) keyword minOperands) :=
  refusesWhole_entry fun _ _ _ => (Accepts.pure (Q := fun _ _ => True) trivial).refusesWhole

omit [Scalar K] in
/-- Setting a parameter comes after all that can be wrong with its operands. -/
theorem refusesWhole_setter (keyword : String) (minOperands : Nat)
    (change : Call K → Except OperatorError (GraphicsState K σ → GraphicsState K σ)) :
    RefusesWhole (setter keyword minOperands change) :=
  refusesWhole_entry fun _ _ _ => .read fun _ => .modify _

/-- The operators that can do something before they are rejected. Three stand for others, and
the elements of an array are shown one by one. A font that is not found is replaced, and marked
content begins even without its properties. -/
def partialKeywords : List String := ["TJ", "TD", "'", "\"", "Tf", "BDC"]

theorem refusesWhole_stateEntries : ∀ e ∈ stateEntries (K := K) (σ := σ), RefusesWhole e := by
  have restores (env : Environment K σ) (c : Context K σ) (call : Call K) :
      (restore call).RefusesWhole env c := by
    refine .context ?_
    split
    · exact .modify _
    · exact .throw _
  simp only [stateEntries, List.forall_mem_cons, List.not_mem_nil, false_implies, implies_true,
    and_true, true_and, refusesWhole_setter]
  exact ⟨refusesWhole_entry fun _ _ _ => .modify _, refusesWhole_entry restores,
    refusesWhole_entry fun _ _ _ => .read fun _ => .environment (.read fun _ => .modify _)⟩

theorem refusesWhole_textStateEntries : ∀ e ∈ textStateEntries (K := K) (σ := σ),
    e.keyword ∉ partialKeywords → RefusesWhole e := by
  simp only [textStateEntries, List.forall_mem_cons, List.not_mem_nil, false_implies, implies_true,
    and_true, true_and, refusesWhole_setter, textSetter]
  refine ⟨fun _ => refusesWhole_entry fun _ _ _ => ?_, fun _ => refusesWhole_entry fun _ _ _ => ?_,
    fun apart => ?_, fun _ => refusesWhole_entry fun _ _ _ => ?_, fun apart => ?_,
    fun _ => refusesWhole_entry fun _ _ _ => ?_, fun _ => refusesWhole_entry fun _ _ _ => ?_⟩
  · exact .modify_emit _ _
  · exact refusesWhole_textObject fun _ _ => .modify_emit _ _
  · exact absurd (by simp [partialKeywords, entry]) apart
  · exact .read fun _ => .read fun _ => refusesWhole_updateTextObject _ _
  · exact absurd (by simp [partialKeywords, compound]) apart
  · exact .read fun _ => refusesWhole_updateTextObject _ _
  · exact .state (refusesWhole_updateTextObject _ _)

theorem refusesWhole_textShowingEntries : ∀ e ∈ textShowingEntries (K := K) (σ := σ),
    e.keyword ∉ partialKeywords → RefusesWhole e := by
  simp only [textShowingEntries, List.forall_mem_cons, List.not_mem_nil, false_implies,
    implies_true, and_true, refusesWhole_ignored]
  refine ⟨fun _ => refusesWhole_entry fun _ _ _ => refusesWhole_showText _, fun apart => ?_,
    fun apart => ?_, fun apart => ?_⟩
  · exact absurd (by simp [partialKeywords, entry]) apart
  · exact absurd (by simp [partialKeywords, compound]) apart
  · exact absurd (by simp [partialKeywords, compound]) apart

omit [Scalar K] in
theorem refusesWhole_markedEntries : ∀ e ∈ markedEntries (K := K) (σ := σ),
    e.keyword ∉ partialKeywords → RefusesWhole e := by
  simp only [markedEntries, List.forall_mem_cons, List.not_mem_nil, false_implies, implies_true,
    and_true]
  refine ⟨fun _ => refusesWhole_entry fun _ _ _ => ?_, fun apart => ?_,
    fun _ => refusesWhole_entry fun _ _ _ => ?_, fun _ => refusesWhole_entry fun _ _ _ => ?_,
    fun _ => refusesWhole_entry fun _ _ _ => ?_, fun _ => refusesWhole_entry fun _ _ _ => ?_,
    fun _ => refusesWhole_entry fun _ _ _ => ?_⟩
  · exact .read fun _ => .emit _
  · exact absurd (by simp [partialKeywords, entry]) apart
  · exact .emit _
  · exact .read fun _ => .emit _
  · exact .read fun _ => .environment (.read fun _ => .emit _)
  · exact .modify _
  · exact .modify _

theorem refusesWhole_sharedEntries : ∀ e ∈ sharedEntries (K := K) (σ := σ),
    e.keyword ∉ partialKeywords → RefusesWhole e := by
  simp only [sharedEntries, List.forall_mem_append]
  refine ⟨⟨⟨⟨?_, refusesWhole_textStateEntries⟩, refusesWhole_textShowingEntries⟩,
    refusesWhole_markedEntries⟩, ?_⟩
  · exact fun e mem _ => refusesWhole_stateEntries e mem
  · intro e mem _
    rw [formEntries, List.mem_singleton] at mem
    subst mem
    exact refusesWhole_entry fun _ _ _ => refusesWhole_invoke _

theorem refusesWhole_pathConstructionEntries :
    ∀ e ∈ pathConstructionEntries (K := K) (σ := σ), RefusesWhole e := by
  have closes (env : Environment K σ) (c : Context K σ) (call : Call K) :
      (closePath call).RefusesWhole env c := by
    refine .context ?_
    split
    · exact refusesWhole_construct _ _
    · exact (Accepts.pure (Q := fun _ _ => True) trivial).refusesWhole
  simp only [pathConstructionEntries, List.forall_mem_cons, List.not_mem_nil, false_implies,
    implies_true, and_true]
  refine ⟨refusesWhole_entry fun _ _ _ => ?_, refusesWhole_entry fun _ _ _ => ?_,
    refusesWhole_entry fun _ _ _ => ?_, refusesWhole_entry fun _ _ _ => ?_,
    refusesWhole_entry fun _ _ _ => ?_, refusesWhole_entry closes,
    refusesWhole_entry fun _ _ _ => ?_⟩
  · exact refusesWhole_devicePoint fun _ => refusesWhole_construct _ _
  · exact refusesWhole_devicePoint fun _ =>
      refusesWhole_fromCurrentPoint _ _ fun _ => refusesWhole_construct _ _
  · exact refusesWhole_devicePoint fun _ => refusesWhole_devicePoint fun _ =>
      refusesWhole_devicePoint fun _ =>
        refusesWhole_fromCurrentPoint _ _ fun _ => refusesWhole_construct _ _
  · exact refusesWhole_devicePoint fun _ => refusesWhole_devicePoint fun _ =>
      refusesWhole_fromCurrentPoint _ _ fun _ => refusesWhole_construct _ _
  · exact refusesWhole_devicePoint fun _ => refusesWhole_devicePoint fun _ =>
      refusesWhole_fromCurrentPoint _ _ fun _ => refusesWhole_construct _ _
  · exact .read fun _ => .read fun _ => .read fun _ => .read fun _ =>
      .state (refusesWhole_construct _ _)

theorem refusesWhole_colorEntries : ∀ e ∈ colorEntries (K := K) (σ := σ), RefusesWhole e := by
  have space (target : PaintTarget) (env : Environment K σ) (c : Context K σ) (call : Call K) :
      (selectSpace target call).RefusesWhole env c :=
    .read fun _ => .environment (.read fun _ => .modify _)
  have color (target : PaintTarget) (patterns : Bool) (env : Environment K σ) (c : Context K σ)
      (call : Call K) : (selectColor target patterns call).RefusesWhole env c :=
    .state (.read fun _ => .modify _)
  simp only [colorEntries, List.forall_mem_cons, List.not_mem_nil, false_implies, implies_true,
    and_true, deviceSetter, refusesWhole_setter]
  exact ⟨refusesWhole_entry (space _), refusesWhole_entry (space _),
    refusesWhole_entry (color _ _), refusesWhole_entry (color _ _), refusesWhole_entry (color _ _),
    refusesWhole_entry (color _ _)⟩

theorem refusesWhole_pathPaintingEntries : ∀ e ∈ pathPaintingEntries (K := K) (σ := σ),
    e.keyword ∉ pathPaintingKeywords → RefusesWhole e := by
  have paints {e : TableEntry K (Action K σ)} (among : e.keyword ∈ pathPaintingKeywords) :
      e.keyword ∉ pathPaintingKeywords → RefusesWhole e :=
    fun apart => absurd among apart
  simp only [pathPaintingEntries, List.forall_mem_cons, List.not_mem_nil, false_implies,
    implies_true, and_true]
  refine ⟨paints ?_, paints ?_, paints ?_, paints ?_, paints ?_, paints ?_, paints ?_, paints ?_,
    paints ?_, paints ?_, fun _ => ?_, fun _ => ?_, fun _ => ?_⟩
  case refine_11 => exact refusesWhole_entry fun _ _ _ => .modify _
  case refine_12 => exact refusesWhole_entry fun _ _ _ => .modify _
  case refine_13 =>
    exact refusesWhole_entry fun _ _ _ => .read fun _ =>
      .environment (.read fun _ => .state (.emit _))
  all_goals simp [pathPaintingKeywords, entry, closeThen, compound]

theorem refusesWhole_paintingEntries : ∀ e ∈ paintingEntries (K := K) (σ := σ),
    e.keyword ∉ pathPaintingKeywords → RefusesWhole e := by
  simp only [paintingEntries, List.forall_mem_append]
  refine ⟨⟨⟨?_, ?_⟩, refusesWhole_pathPaintingEntries⟩, ?_⟩
  · intro e mem _
    rw [inlineImageEntries, List.mem_singleton] at mem
    subst mem
    exact refusesWhole_entry fun _ _ _ => refusesWhole_showInlineImage _
  · exact fun e mem _ => refusesWhole_pathConstructionEntries e mem
  · exact fun e mem _ => refusesWhole_colorEntries e mem

/-- What the table finds does nothing before it is rejected, apart from the operators above and
those that paint a path. -/
theorem refusesWhole_of_find? {keyword : String} {e : TableEntry K (Action K σ)}
    (found : graphicsTable.find? keyword = some e) (whole : keyword ∉ partialKeywords)
    (paints : keyword ∉ pathPaintingKeywords) : RefusesWhole e := by
  rw [find?_graphicsTable, Option.or_eq_some_iff] at found
  rcases found with painting | ⟨_, shared⟩
  · obtain ⟨mem, same⟩ := OperatorTable.mem_of_find?_ofList painting
    exact refusesWhole_paintingEntries e mem (same ▸ paints)
  · obtain ⟨mem, same⟩ := OperatorTable.mem_of_find?_ofList shared
    exact refusesWhole_sharedEntries e mem (same ▸ whole)

theorem refusesWhole_dispatch (call : Call K) (whole : call.operator.keyword ∉ partialKeywords)
    (paints : call.operator.keyword ∉ pathPaintingKeywords) (env : Environment K σ)
    (c : Context K σ) : (graphicsTable.dispatch call).RefusesWhole env c := by
  rw [OperatorTable.dispatch, OperatorTable.dispatchWithin]
  cases found : (graphicsTable (K := K) (σ := σ)).find? call.operator.keyword with
  | none => exact .throw _
  | some e =>
      obtain ⟨run, action, refuses⟩ := refusesWhole_of_find? found whole paints
      simp only [action]
      split
      · exact .throw _
      · exact refuses env c call

/-! ### Runs -/

section Runs

variable {r : RunSettings K σ} {scope : σ} {nested : NestedRun K σ} {s : RunState K σ}
  {e : OperatorError}

theorem not_isRejection_finishPath (restores : nested.Restores) (never : nested.NeverRejects)
    {painting : Painting} {call : Call K}
    (failed : ((finishPath painting call).run (r.environment scope) nested s).result = .error e) :
    ¬ e.IsRejection := by
  simp only [run_finishPath restores, Outcome.result_after, fillOutcome] at failed
  split at failed
  · cases failed
  split at failed
  · cases failed
  simp only [cellOutcome] at failed
  split at failed
  · cases failed
    exact id
  · exact never _ _ _ _ e failed

/-- Painting a path is not rejected. -/
theorem not_isRejection_of_painting (restores : nested.Restores) (never : nested.NeverRejects)
    {call : Call K} (paints : call.operator.keyword ∈ pathPaintingKeywords)
    (failed : ((graphicsTable.dispatch call).run (r.environment scope) nested s).result =
      .error e) : ¬ e.IsRejection := by
  obtain ⟨painting, found | ⟨next, found, goesOn⟩⟩ := find?_pathPainting (K := K) (σ := σ) paints
  · rw [OperatorTable.dispatch_of_action found (Nat.zero_le _)] at failed
    exact not_isRejection_finishPath restores never failed
  · rw [dispatch_closeThen found goesOn, Action.run_bind,
      Outcome.andThen_of_ok (result_closePath call s)] at failed
    exact not_isRejection_finishPath restores never failed

end Runs

/-- The state with the fallback font selected, by a name and in a size. -/
def selectFallback (name : String) (size : K) (s : RunState K σ) : RunState K σ :=
  s.updateContext fun c => c.updateState fun t =>
    { t with text :=
        { t.text with font := some .fallback, fontName := some name, fontSize := size } }

/-- What is left of an operator that has been rejected by an error, in a state and with an
environment. -/
inductive Rejected (env : Environment K σ) (call : Call K) (e : OperatorError) (s : RunState K σ)
    (o : Outcome OperatorError K σ Unit) : Prop
  | untouched
    (noFont : ¬ (call.operator.keyword = "Tf" ∧ ∃ kind name, e = .missingResource kind name))
    (noProperties : ¬ (call.operator.keyword = "BDC" ∧ 2 ≤ call.operands.length ∧
      ∃ tag, call.name 0 = .ok tag))
    (state : o.state = s) (log : ∀ entry ∈ o.log, entry.IsWarning)
  /-- A font that is not in the resources is replaced by the fallback font. -/
  | fallbackFont (keyword : call.operator.keyword = "Tf") (name : String) (size : K)
    (named : call.name 0 = .ok name) (sized : call.number 1 = .ok size)
    (missing : env.resolver.font env.scope name = none) (error : e = .missingResource .font name)
    (state : o.state = selectFallback name size s) (log : o.log = [])
  /-- Marked content begins, although its properties are not in the resources or no dictionary. -/
  | withoutProperties (keyword : call.operator.keyword = "BDC") (tag : String)
    (tagged : call.name 0 = .ok tag) (enough : 2 ≤ call.operands.length)
    (error : propertyList env call = .error e)
    (state : o.state = s) (log : o.log = [.event (.beginMarked tag none)])

section Exceptions

variable {environment : RunState K σ → Environment K σ} {nested : NestedRun K σ} {call : Call K}
  {s : RunState K σ} {e : OperatorError}

omit [Scalar K] in
/-- What is wrong with an operand is not that a resource is missing. -/
theorem not_missingResource_of_read {index : Nat} {expected : String} {view : Operand K → Option α}
    (failed : call.read index expected view = .error e) :
    ¬ ∃ kind name, e = .missingResource kind name := by
  rintro ⟨kind, name, rfl⟩
  rw [Call.read, Call.operand] at failed
  cases there : call.operands[index]? with
  | none =>
      rw [there] at failed
      cases failed
  | some v =>
      simp only [there, Bind.bind, Except.bind] at failed
      cases seen : view v with
      | none => simp [seen, Call.invalid] at failed
      | some a => simp [seen] at failed

/-- A font that is not found is replaced, and the error is reported. -/
theorem run_setFont_of_missing {name : String} {size : K} (named : call.name 0 = .ok name)
    (sized : call.number 1 = .ok size)
    (missing : (environment s).resolver.font (environment s).scope name = none) :
    (setFont call).run environment nested s =
      ⟨.error (.missingResource .font name), selectFallback name size s, []⟩ := by
  rw [setFont, named, sized, Action.run_ok_bind, Action.run_ok_bind, Action.run_environment_bind]
  simp only [missing]
  rfl

theorem result_setFont_of_found {name : String} {size : K} {font : Font K σ}
    (named : call.name 0 = .ok name) (sized : call.number 1 = .ok size)
    (found : (environment s).resolver.font (environment s).scope name = some font) :
    ((setFont call).run environment nested s).result = .ok () := by
  rw [setFont, named, sized, Action.run_ok_bind, Action.run_ok_bind, Action.run_environment_bind]
  simp only [found]
  split
  · rw [Action.run_warnAt_bind]
    rfl
  · rfl

theorem rejected_setFont (keyword : call.operator.keyword = "Tf")
    (failed : ((setFont call).run environment nested s).result = .error e) :
    Rejected (environment s) call e s ((setFont call).run environment nested s) := by
  have other : call.operator.keyword ≠ "BDC" := by
    rw [keyword]
    decide
  have early {e : OperatorError} (operand : ¬ ∃ kind name, e = .missingResource kind name) :
      Rejected (environment s) call e s ⟨.error e, s, []⟩ :=
    .untouched (fun h => operand h.2) (fun h => other h.1) rfl (by simp)
  cases named : call.name 0 with
  | error e' =>
      rw [setFont, named, Action.run_error_bind] at failed ⊢
      cases failed
      exact early (not_missingResource_of_read named)
  | ok name =>
    cases sized : call.number 1 with
    | error e' =>
        rw [setFont, named, sized, Action.run_ok_bind, Action.run_error_bind] at failed ⊢
        cases failed
        exact early (not_missingResource_of_read sized)
    | ok size =>
      cases found : (environment s).resolver.font (environment s).scope name with
      | none =>
          rw [run_setFont_of_missing named sized found] at failed ⊢
          cases failed
          exact .fallbackFont keyword name size named sized found rfl rfl rfl
      | some font =>
          rw [result_setFont_of_found named sized found] at failed
          cases failed

theorem rejected_beginMarkedWithProperties (keyword : call.operator.keyword = "BDC")
    (enough : 2 ≤ call.operands.length)
    (failed : ((beginMarkedWithProperties call).run environment nested s).result = .error e) :
    Rejected (environment s) call e s
      ((beginMarkedWithProperties call).run environment nested s) := by
  have other : call.operator.keyword ≠ "Tf" := by
    rw [keyword]
    decide
  cases tagged : call.name 0 with
  | error e' =>
      rw [beginMarkedWithProperties, tagged, Action.run_error_bind] at failed ⊢
      cases failed
      refine .untouched (fun h => other h.1) ?_ rfl (by simp)
      rintro ⟨_, _, tag, named⟩
      cases tagged.symm.trans named
  | ok tag =>
      rw [beginMarkedWithProperties, tagged, Action.run_ok_bind, Action.run_environment_bind]
        at failed ⊢
      cases given : propertyList (environment s) call with
      | ok properties =>
          simp only [given] at failed
          cases failed
      | error e' =>
          simp only [given] at failed ⊢
          cases failed
          exact .withoutProperties keyword tag tagged enough given rfl rfl

end Exceptions

section Table

variable {r : RunSettings K σ} {scope : σ} {nested : NestedRun K σ} {call : Call K}
  {s : RunState K σ} {e : OperatorError}

/-- Where there are too few operands nothing is done. -/
theorem rejected_of_few {t : ContentTable K σ} {entry : TableEntry K (Action K σ)}
    {environment : RunState K σ → Environment K σ}
    (found : t.find? call.operator.keyword = some entry)
    (few : call.operands.length < entry.minOperands)
    (failed : ((t.dispatch call).run environment nested s).result = .error e)
    (properties : call.operator.keyword = "BDC" → entry.minOperands ≤ 2) :
    Rejected (environment s) call e s ((t.dispatch call).run environment nested s) := by
  have thrown : t.dispatch call =
      throw (.missingOperand call.operator.keyword entry.minOperands call.operands.length) := by
    rw [OperatorTable.dispatch, OperatorTable.dispatchWithin, found]
    simp only [few, if_true]
  rw [thrown, Action.run_throw] at failed ⊢
  cases failed
  refine .untouched ?_ ?_ rfl (by simp)
  · rintro ⟨_, kind, name, missing⟩
    cases missing
  · rintro ⟨keyword, enough, _⟩
    have := properties keyword
    omega

/-- What a rejected operator of the table for painting has left, whatever nested streams do. -/
theorem rejected_dispatch (restores : nested.Restores) (never : nested.NeverRejects)
    (single : call.operator.keyword ∉ ["TJ", "TD", "'", "\""]) (rejected : e.IsRejection)
    (failed : ((graphicsTable.dispatch call).run (r.environment scope) nested s).result =
      .error e) :
    Rejected (r.environment scope s) call e s
      ((graphicsTable.dispatch call).run (r.environment scope) nested s) := by
  by_cases font : call.operator.keyword = "Tf"
  · have found := find?_graphicsTable_of_mem (e := entry (K := K) (σ := σ) "Tf" 2 setFont)
      (by simp [sharedEntries, textStateEntries])
    by_cases few : call.operands.length < 2
    · exact rejected_of_few (font ▸ found) few failed fun _ => Nat.le_refl 2
    · rw [OperatorTable.dispatch_of_action (font ▸ found) (Nat.not_lt.mp few)] at failed ⊢
      exact rejected_setFont font failed
  by_cases marked : call.operator.keyword = "BDC"
  · have found := find?_graphicsTable_of_mem
      (e := entry (K := K) (σ := σ) "BDC" 2 beginMarkedWithProperties)
      (by simp [sharedEntries, markedEntries])
    by_cases few : call.operands.length < 2
    · exact rejected_of_few (marked ▸ found) few failed fun _ => Nat.le_refl 2
    · rw [OperatorTable.dispatch_of_action (marked ▸ found) (Nat.not_lt.mp few)] at failed ⊢
      exact rejected_beginMarkedWithProperties marked (Nat.not_lt.mp few) failed
  by_cases paints : call.operator.keyword ∈ pathPaintingKeywords
  · exact absurd rejected (not_isRejection_of_painting restores never paints failed)
  have whole : call.operator.keyword ∉ partialKeywords := by
    simp only [partialKeywords, List.mem_cons, List.not_mem_nil, or_false] at single ⊢
    tauto
  have stable (t : RunState K σ) (same : t.place = s.place) :
      r.environment scope t = r.environment scope s := by
    simp only [RunSettings.environment, same]
  obtain ⟨state, log⟩ := RefusesWhole.run restores never stable
    (refusesWhole_dispatch call whole paints (r.environment scope s) s.toContext) failed rejected
  exact .untouched (fun h => font h.1) (fun h => marked h.1) state log

end Table

end Operators

namespace RunSettings

variable [Scalar K]

/-- An operator of the table for painting that is rejected leaves everything as it was: the graphics
state, what is saved, the text object, compatibility sections, the path and a pending clip. The
device is told nothing but warnings. There are two exceptions. A font that is missing is replaced by
the fallback font, and marked content whose properties cannot be had begins without them. The
operators that show the elements of an array one by one or that stand for others are left out. -/
theorem graphics_rejected (options : Options) (baseMatrix : Matrix K) (resolver : Resolver K σ)
    (scope : σ) (levels : Nat) (call : Call K) (s : RunState K σ)
    (single : call.operator.keyword ∉ ["TJ", "TD", "'", "\""]) (e : OperatorError)
    (rejected : e.IsRejection) :
    let r := graphics options baseMatrix resolver
    let o := (Operators.graphicsTable.dispatch call).run (r.environment scope)
      (r.nestedRun levels) s
    o.result = .error e → Operators.Rejected (r.environment scope s) call e s o := by
  intro r o failed
  exact Operators.rejected_dispatch (r.restores_nestedRun levels) (r.neverRejects_nestedRun levels)
    single rejected failed

/-- A matrix whose last operand is a name. -/
theorem graphics_rejected_matrix :
    let r : RunSettings Int Unit := graphics .standard .identity (.ofCatalogs fun _ => {})
    let call : Call Int :=
      ⟨.plain "cm", [.integer 2, .integer 0, .integer 0, .integer 2, .integer 5, .name "x"]⟩
    let s : RunState Int Unit := .initial .identity
    let e : OperatorError := .invalidOperand "cm" 5 "number" "name"
    let o := (Operators.graphicsTable.dispatch call).run (r.environment ()) (r.nestedRun 1) s
    o.result = .error e ∧ Operators.Rejected (r.environment () s) call e s o := by
  intro r call s e o
  have failed : o.result = .error e := by decide +kernel
  exact ⟨failed, graphics_rejected .standard .identity _ () 1 call s (by decide) e trivial failed⟩

end RunSettings

end PdfContent
