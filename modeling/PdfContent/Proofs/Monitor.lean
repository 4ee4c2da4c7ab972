import PdfContent.Proofs.Restoration

/-!
# Watching what actions do

A `Monitor` watches an action from one deed to the next: it keeps a value of its own, allows a deed
or not, and moves on to its next value. `Obeys` says that everything an action may do is allowed,
whatever the nested streams that it asks for answer, and what holds when it is done. It is computed
from the action, so that what an operator may do can be read off its definition step by step,
without running it.

`Obeys.run` connects this with runs: a relation between the monitor's value and the log that is kept
by each allowed deed holds after the whole run.
-/

namespace PdfContent

variable {K σ G α β : Type}

/-- What an action does in one go, and in which context. -/
inductive Deed (K σ : Type)
  | change (before after : Context K σ)
  | tell (c : Context K σ) (e : Event K σ)
  /-- Has content run as a nested stream. -/
  | nest (c : Context K σ) (content : Bytes) (scope : σ)
      (setup : GraphicsState K σ → GraphicsState K σ)

/-- A watch on actions, with values in `G`. -/
structure Monitor (K σ G : Type) where
  allows : G → Deed K σ → Prop
  /-- The value after a change or after something was told. -/
  next : G → Deed K σ → G
  /-- The value after a nested stream with the given result. -/
  answered : G → Except OperatorError Unit → G

namespace Action

/-- All that the action may do is allowed, from a value of the monitor and in a context. In the end
`Q` holds of the action's value, or `E` of its error. Nested streams give the context back. -/
def Obeys (m : Monitor K σ G) (env : Environment K σ) (Q : α → G → Context K σ → Prop)
    (E : OperatorError → G → Context K σ → Prop) : Action K σ α → G → Context K σ → Prop
  | .finish (.ok a), g, c => Q a g c
  | .finish (.error e), g, c => E e g c
  | .look next, g, c => (next env c).Obeys m env Q E g c
  | .change f next, g, c =>
    m.allows g (.change c (f c)) ∧ next.Obeys m env Q E (m.next g (.change c (f c))) (f c)
  | .tell e next, g, c => m.allows g (.tell c e) ∧ next.Obeys m env Q E (m.next g (.tell c e)) c
  | .nest content scope setup next, g, c =>
    m.allows g (.nest c content scope setup) ∧
      ∀ answer, (next answer).Obeys m env Q E (m.answered g answer) c

section Rules

variable {m : Monitor K σ G} {env : Environment K σ} {Q Q' : α → G → Context K σ → Prop}
  {E E' : OperatorError → G → Context K σ → Prop} {g : G} {c : Context K σ}

@[simp] theorem obeys_pure (a : α) : Obeys m env Q E (Pure.pure a) = Q a := rfl

@[simp] theorem obeys_fail (e : OperatorError) : Obeys m env Q E (fail e) = E e := rfl

@[simp] theorem obeys_throw (e : OperatorError) : Obeys m env Q E (throw e) = E e := rfl

/-- The second part of an action takes over where the first has come to a value. -/
@[simp] theorem obeys_bind (x : Action K σ β) (f : β → Action K σ α) :
    Obeys m env Q E (x >>= f) = Obeys m env (fun b => Obeys m env Q E (f b)) E x := by
  funext g c
  change Obeys m env Q E (x.bind f) g c = _
  induction x generalizing g c with
  | finish result => cases result <;> rfl
  | look next ih => exact ih _ _ g c
  | change h next ih => exact congrArg (_ ∧ ·) (ih _ _)
  | tell e next ih => exact congrArg (_ ∧ ·) (ih _ _)
  | nest content scope setup next ih =>
      exact congrArg (_ ∧ ·) (forall_congr fun answer => ih answer _ _)

@[simp] theorem obeys_attempt (x : Action K σ β)
    {Q : Except OperatorError β → G → Context K σ → Prop} :
    Obeys m env Q E x.attempt = Obeys m env (fun b => Q (.ok b)) (fun e => Q (.error e)) x := by
  funext g c
  induction x generalizing g c with
  | finish result => cases result <;> rfl
  | look next ih => exact ih _ _ g c
  | change h next ih => exact congrArg (_ ∧ ·) (ih _ _)
  | tell e next ih => exact congrArg (_ ∧ ·) (ih _ _)
  | nest content scope setup next ih =>
      exact congrArg (_ ∧ ·) (forall_congr fun answer => ih answer _ _)

@[simp] theorem obeys_environment {Q : Environment K σ → G → Context K σ → Prop} :
    Obeys m env Q E environment = Q env := rfl

@[simp] theorem obeys_context {Q : Context K σ → G → Context K σ → Prop} :
    Obeys m env Q E context = fun g c => Q c g c := rfl

@[simp] theorem obeys_state {Q : GraphicsState K σ → G → Context K σ → Prop} :
    Obeys m env Q E state = fun g c => Q c.state g c := rfl

@[simp] theorem obeys_modify (f : Context K σ → Context K σ) {Q : Unit → G → Context K σ → Prop} :
    Obeys m env Q E (modify f) = fun g c =>
      m.allows g (.change c (f c)) ∧ Q () (m.next g (.change c (f c))) (f c) := rfl

@[simp] theorem obeys_emit (e : Event K σ) {Q : Unit → G → Context K σ → Prop} :
    Obeys m env Q E (emit e) = fun g c => m.allows g (.tell c e) ∧ Q () (m.next g (.tell c e)) c :=
  rfl

@[simp] theorem obeys_nested (content : Bytes) (scope : σ)
    (setup : GraphicsState K σ → GraphicsState K σ) {Q : Unit → G → Context K σ → Prop} :
    Obeys m env Q E (nested content scope setup) = fun g c =>
      m.allows g (.nest c content scope setup) ∧
        ∀ answer, Obeys m env Q E (ofExcept answer) (m.answered g answer) c := rfl

theorem obeys_ofExcept (result : Except OperatorError α) :
    Obeys m env Q E (ofExcept result) g c ↔
      (∀ a, result = .ok a → Q a g c) ∧ ∀ e, result = .error e → E e g c := by
  cases result <;> simp [ofExcept, Obeys]

@[simp] theorem obeys_handle (x : Action K σ α) (f : OperatorError → Action K σ α) :
    Obeys m env Q E (x.handle f) = Obeys m env Q (fun e => Obeys m env Q E (f e)) x := by
  simp only [handle, obeys_bind, obeys_attempt, obeys_pure]

@[simp] theorem obeys_andFinally (x : Action K σ α) (last : Action K σ Unit) :
    Obeys m env Q E (x.andFinally last) =
      Obeys m env (fun a => Obeys m env (fun _ => Q a) E last)
        (fun e => Obeys m env (fun _ => E e) E last) x := by
  simp only [andFinally, obeys_bind, obeys_attempt]
  rfl

/-- What is shown of an action's end can be weakened. -/
theorem Obeys.mono {x : Action K σ α} (obeys : x.Obeys m env Q E g c)
    (value : ∀ a g c, Q a g c → Q' a g c) (error : ∀ e g c, E e g c → E' e g c) :
    x.Obeys m env Q' E' g c := by
  induction x generalizing g c with
  | finish result =>
      cases result with
      | ok a => exact value a g c obeys
      | error e => exact error e g c obeys
  | look next ih => exact ih _ _ obeys
  | change f next ih => exact ⟨obeys.1, ih obeys.2⟩
  | tell e next ih => exact ⟨obeys.1, ih obeys.2⟩
  | nest content scope setup next ih => exact ⟨obeys.1, fun answer => ih answer (obeys.2 answer)⟩

/-- What one monitor allows, another that allows more does, too, if both go on in the same way. -/
theorem Obeys.of_allows {m' : Monitor K σ G} {x : Action K σ α} (obeys : x.Obeys m env Q E g c)
    (allows : ∀ g d, m.allows g d → m'.allows g d) (next : m'.next = m.next)
    (answered : m'.answered = m.answered) : x.Obeys m' env Q E g c := by
  induction x generalizing g c with
  | finish result => cases result <;> exact obeys
  | look next ih => exact ih _ _ obeys
  | change f next ih => exact ⟨allows _ _ obeys.1, ih (by simp only [‹m'.next = m.next›, obeys.2])⟩
  | tell e next ih => exact ⟨allows _ _ obeys.1, ih (by simp only [‹m'.next = m.next›, obeys.2])⟩
  | nest content scope setup next ih =>
      exact ⟨allows _ _ obeys.1, fun answer => ih answer (by simp only [answered, obeys.2])⟩

/-- A monitor that lets warnings pass without taking notice lets them be reported. -/
theorem Obeys.warn {Q : Unit → G → Context K σ → Prop} (w : Warning)
    (passes : m.allows g (.tell c (.warning w)) ∧ m.next g (.tell c (.warning w)) = g)
    (after : Q () g c) : (Action.warn w : Action K σ Unit).Obeys m env Q E g c := by
  simp only [Action.warn, obeys_bind, obeys_environment]
  split
  · simp only [obeys_emit, passes.2]
    exact ⟨passes.1, after⟩
  · exact after

end Rules

end Action

/-- What relates a monitor's value, the context and the log is kept by each allowed deed, with
nested streams run by `nested` from a certain depth. -/
structure Monitor.Keeps (m : Monitor K σ G) (nested : NestedRun K σ) (depth : Nat)
    (L : G → Context K σ → List (Entry K σ) → Prop) : Prop where
  change : ∀ g log before after, L g before log → m.allows g (.change before after) →
    L (m.next g (.change before after)) after log
  tell : ∀ g log c e, L g c log → m.allows g (.tell c e) →
    L (m.next g (.tell c e)) c (log ++ [.event e])
  nest : ∀ g log content scope setup s, L g s.toContext log → s.depth = depth →
    m.allows g (.nest s.toContext content scope setup) →
    L (m.answered g (nested content scope setup s).result) s.toContext
      (log ++ (nested content scope setup s).log)

/-- Actions leave an operator's place alone. -/
theorem Action.place_run {nested : NestedRun K σ} (restores : nested.Restores)
    (environment : RunState K σ → Environment K σ) (x : Action K σ α) (s : RunState K σ) :
    (x.run environment nested s).state.place = s.place := by
  induction x generalizing s with
  | finish result => rfl
  | look next ih => exact ih _ _ s
  | change f next ih => exact ih (s.updateContext f)
  | tell e next ih => exact ih s
  | nest content scope setup next ih =>
      have back : (nested content scope setup s).state = s := restores content scope setup s
      simp only [run, Outcome.state_after, back]
      exact ih _ s

namespace Action

/-- A run of an action that obeys a monitor. The relation `L` holds from the context and the
log on which the action starts to the context that it leaves and the log with all that it adds. -/
theorem Obeys.run {m : Monitor K σ G} {nested : NestedRun K σ}
    {L : G → Context K σ → List (Entry K σ) → Prop} {Q : α → G → Context K σ → Prop}
    {E : OperatorError → G → Context K σ → Prop} {environment : RunState K σ → Environment K σ}
    {env : Environment K σ} (restores : nested.Restores) {s : RunState K σ}
    (stable : ∀ t, t.place = s.place → environment t = env) (keeps : m.Keeps nested s.depth L)
    {x : Action K σ α} {g : G} {log : List (Entry K σ)} (start : L g s.toContext log)
    (obeys : x.Obeys m env Q E g s.toContext) : let o := x.run environment nested s
    ∃ g', L g' o.state.toContext (log ++ o.log) ∧
      (∀ a, o.result = .ok a → Q a g' o.state.toContext) ∧
      ∀ e, o.result = .error e → E e g' o.state.toContext := by
  induction x generalizing g log s with
  | finish result =>
      refine ⟨g, by simpa [Action.run] using start, ?_, ?_⟩ <;> (intro a ha; cases ha; exact obeys)
  | look next ih =>
      have here : environment s = env := stable s rfl
      simp only [Action.run, here]
      exact ih _ _ stable keeps start obeys
  | change f next ih =>
      have after := keeps.change _ _ _ _ start obeys.1
      have stable : ∀ t, t.place = (s.updateContext f).place → environment t = env := stable
      exact ih stable keeps after obeys.2
  | tell e next ih =>
      obtain ⟨g', after, ends⟩ := ih stable keeps (keeps.tell _ _ _ _ start obeys.1) obeys.2
      rw [List.append_assoc] at after
      exact ⟨g', after, ends⟩
  | nest content scope setup next ih =>
      have back : (nested content scope setup s).state = s := restores content scope setup s
      have within := keeps.nest g log content scope setup s start rfl obeys.1
      obtain ⟨g', after, ends⟩ :=
        ih (nested content scope setup s).result stable keeps within (obeys.2 _)
      rw [List.append_assoc] at after
      simp only [Action.run, Outcome.log_after, Outcome.result_after, Outcome.state_after, back]
      exact ⟨g', after, ends⟩

end Action

end PdfContent
