import PdfContent.Proofs.Arguments
import PdfContent.Proofs.Monitor

/-!
# How operators behave

A `Manner` lists what the operators of a kind may do: which changes they make, what they tell, which
nested streams they open and by which errors they fail. `Behaves` says that an action keeps to a
manner. It adds one rule that all operators share: a fault in a nested stream is passed on. After
such a fault no further stream is opened, and the operator fails with the fault; without one it does
not fail so.

Each rule below is for one step at the head of an action, so that a proof that an operator behaves
follows the operator's definition. Operands and resources are read by partial functions whose errors
concern the operator alone; these are collected first.
-/

namespace PdfContent

variable {K σ α β : Type}

namespace OperatorError

/-- An error about the operator itself, after which every stream goes on. -/
def IsLocal : OperatorError → Prop
  | .fatal _ => False
  | .emptyGraphicsStack => False
  | .recursionLimit _ => False
  | _ => True

/-- The fault of a nested stream's content, if that is the error. -/
def fault? : OperatorError → Option ContentError
  | .fatal cause => some cause
  | _ => none

theorem IsLocal.fault? {e : OperatorError} (isLocal : e.IsLocal) : e.fault? = none := by
  cases e <;> first | rfl | exact isLocal.elim

theorem fault?_eq_some {e : OperatorError} {cause : ContentError} :
    e.fault? = some cause ↔ e = .fatal cause := by
  cases e <;> simp [OperatorError.fault?]

end OperatorError

/-- After an error about an operator itself the stream goes on. -/
theorem RunState.ending?_of_isLocal (s : RunState K σ) {e : OperatorError} (isLocal : e.IsLocal) :
    s.ending? (.error e) = none := by
  cases e <;> first | rfl | exact isLocal.elim

/-- The fault that a result passes on. -/
def faultOf? : Except OperatorError α → Option ContentError
  | .ok _ => none
  | .error e => e.fault?

theorem faultOf?_eq_some {result : Except OperatorError α} {cause : ContentError} :
    faultOf? result = some cause ↔ result = .error (.fatal cause) := by
  cases result <;> simp [faultOf?, OperatorError.fault?_eq_some]

/-- A value of two partial steps comes from a value of the first. -/
theorem exists_of_bind_ok {ε : Type} {x : Except ε β} {f : β → Except ε α} {a : α}
    (h : x >>= f = .ok a) : ∃ b, x = .ok b ∧ f b = .ok a := by
  cases x with
  | error e => cases h
  | ok b => exact ⟨b, rfl, h⟩

/-- A result that, if it is an error, concerns the operator alone. -/
def LocalResult (result : Except OperatorError α) : Prop := ∀ e, result = .error e → e.IsLocal

namespace LocalResult

theorem ok (a : α) : LocalResult (.ok a : Except OperatorError α) := by
  intro e he
  cases he

theorem error {e : OperatorError} (isLocal : e.IsLocal) :
    LocalResult (.error e : Except OperatorError α) := by
  intro e' he
  cases he
  exact isLocal

theorem bind {x : Except OperatorError β} {f : β → Except OperatorError α} (hx : LocalResult x)
    (hf : ∀ b, LocalResult (f b)) : LocalResult (x >>= f) := by
  cases x with
  | error e => exact error (hx e rfl)
  | ok b => exact hf b

end LocalResult

theorem OperatorError.IsArgument.isLocal {e : OperatorError} (isArgument : e.IsArgument) :
    e.IsLocal := by
  cases e <;> trivial

/-- Errors about arguments concern the operator alone. -/
theorem ArgumentResult.isLocal {result : Except OperatorError α}
    (argument : ArgumentResult result) : LocalResult result :=
  fun e failed => (argument e failed).isLocal

namespace Call

variable [Scalar K] (call : Call K)

omit [Scalar K] in
theorem localResult_read (index : Nat) (expected : String) (view : Operand K → Option α) :
    LocalResult (call.read index expected view) :=
  (call.argument_read index expected view).isLocal

theorem localResult_number (index : Nat) : LocalResult (call.number index) :=
  call.localResult_read _ _ _

theorem localResult_integer (index : Nat) : LocalResult (call.integer index) :=
  call.localResult_read _ _ _

omit [Scalar K] in
theorem localResult_name (index : Nat) : LocalResult (call.name index) :=
  call.localResult_read _ _ _

omit [Scalar K] in
theorem localResult_string (index : Nat) : LocalResult (call.string index) :=
  call.localResult_read _ _ _

omit [Scalar K] in
theorem localResult_array (index : Nat) : LocalResult (call.array index) :=
  call.localResult_read _ _ _

theorem localResult_matrix : LocalResult call.matrix := call.argument_matrix.isLocal

end Call

theorem Operators.localResult_require (kind : ResourceKind) (name : String) (found : Option α) :
    LocalResult (require kind name found) :=
  (argument_require kind name found).isLocal

/-- What the operators of a kind may do. -/
structure Manner (K σ : Type) where
  moves : Context K σ → Context K σ → Prop
  tells : Event K σ → Prop
  opens : Context K σ → Bytes → σ → (GraphicsState K σ → GraphicsState K σ) → Prop
  /-- The errors by which operators fail that do not pass on a fault. -/
  fails : OperatorError → Prop
  tells_warning : ∀ w, tells (.warning w)
  fails_local : ∀ e, e.IsLocal → fails e

/-- What an entry's own action does has a property in every context, whatever its operands. An entry
that stands for others fails by itself only with errors of its own. -/
def TableEntry.Follows (P : Environment K σ → Context K σ → Action K σ Unit → Prop)
    (e : TableEntry K (Action K σ)) : Prop :=
  match e.handler with
  | .action run => ∀ env c call, P env c (run call)
  | .sequence steps => ∀ call, LocalResult (steps call)

theorem TableEntry.Follows.mono {P Q : Environment K σ → Context K σ → Action K σ Unit → Prop}
    {e : TableEntry K (Action K σ)} (follows : e.Follows P)
    (weaker : ∀ env c x, P env c x → Q env c x) : e.Follows Q := by
  unfold Follows at *
  split at follows
  · intro env c call
    exact weaker _ _ _ (follows env c call)
  · exact follows

namespace Manner

/-- A manner that allows more. -/
structure Le (first second : Manner K σ) : Prop where
  moves : ∀ c c', first.moves c c' → second.moves c c'
  tells : ∀ e, first.tells e → second.tells e
  opens : ∀ c content scope setup, first.opens c content scope setup →
    second.opens c content scope setup
  fails : ∀ e, first.fails e → second.fails e

theorem Le.refl (manner : Manner K σ) : manner.Le manner :=
  ⟨fun _ _ h => h, fun _ h => h, fun _ _ _ _ h => h, fun _ h => h⟩

/-- Watches whether a manner is kept. Its value is the fault that the latest nested stream has ended
with, after which none may be opened. -/
def monitor (manner : Manner K σ) : Monitor K σ (Option ContentError) where
  allows
    | _, .change before after => manner.moves before after
    | _, .tell _ e => manner.tells e
    | fault, .nest c content scope setup => fault = none ∧ manner.opens c content scope setup
  next fault _ := fault
  answered _ answer := faultOf? answer

end Manner

namespace Action

/-- From a context an action keeps to a manner, with `Q` for its value and the context after it. It
fails with the fault of a nested stream if there was one, and else by an error that the manner
names. -/
def Behaves (manner : Manner K σ) (env : Environment K σ) (x : Action K σ α) (c : Context K σ)
    (Q : α → Context K σ → Prop) : Prop :=
  x.Obeys manner.monitor env (fun a fault c => fault = none ∧ Q a c)
    (fun e fault _ => e.fault? = fault ∧ (fault = none → manner.fails e)) none c

namespace Behaves

variable {manner : Manner K σ} {env : Environment K σ} {c : Context K σ}
  {Q : α → Context K σ → Prop} {R : β → Context K σ → Prop}

theorem pure {a : α} (value : Q a c) : (Pure.pure a : Action K σ α).Behaves manner env c Q :=
  ⟨rfl, value⟩

theorem fail {e : OperatorError} (noFault : e.fault? = none) (fails : manner.fails e) :
    (MonadExcept.throw e : Action K σ α).Behaves manner env c Q :=
  ⟨noFault, fun _ => fails⟩

theorem throw {e : OperatorError} (isLocal : e.IsLocal) :
    (MonadExcept.throw e : Action K σ α).Behaves manner env c Q :=
  fail isLocal.fault? (manner.fails_local e isLocal)

theorem mono {Q' : α → Context K σ → Prop} {x : Action K σ α} (behaves : x.Behaves manner env c Q)
    (weaker : ∀ a c, Q a c → Q' a c) : x.Behaves manner env c Q' :=
  Obeys.mono behaves (fun a _ c h => ⟨h.1, weaker a c h.2⟩) fun _ _ _ h => h

/-- Two parts of an action in turn. -/
theorem bind {x : Action K σ β} {f : β → Action K σ α} (first : x.Behaves manner env c R)
    (second : ∀ b c', R b c' → (f b).Behaves manner env c' Q) :
    (x >>= f).Behaves manner env c Q := by
  simp only [Behaves, obeys_bind]
  refine Obeys.mono first ?_ fun _ _ _ h => h
  rintro b fault c' ⟨rfl, h⟩
  exact second b c' h

/-- What follows on an action of which nothing need be known. -/
theorem next {x : Action K σ Unit} {y : Action K σ α}
    (first : x.Behaves manner env c fun _ _ => True) (second : ∀ c, y.Behaves manner env c Q) :
    (x >>= fun _ => y).Behaves manner env c Q :=
  first.bind fun _ c' _ => second c'

/-- Reads something that may be missing. -/
theorem read {result : Except OperatorError β} {f : β → Action K σ α} (isLocal : LocalResult result)
    (value : ∀ b, result = .ok b → (f b).Behaves manner env c Q) :
    (ofExcept result >>= f).Behaves manner env c Q := by
  cases result with
  | error e => exact throw (isLocal e rfl)
  | ok b => exact value b rfl

theorem environment {f : Environment K σ → Action K σ α} (next : (f env).Behaves manner env c Q) :
    (Action.environment >>= f).Behaves manner env c Q := next

theorem context {f : Context K σ → Action K σ α} (next : (f c).Behaves manner env c Q) :
    (Action.context >>= f).Behaves manner env c Q := next

theorem state {f : GraphicsState K σ → Action K σ α} (next : (f c.state).Behaves manner env c Q) :
    (Action.state >>= f).Behaves manner env c Q := next

theorem modify {h : Context K σ → Context K σ} {Q : Unit → Context K σ → Prop}
    (moves : manner.moves c (h c)) (after : Q () (h c)) :
    (Action.modify h).Behaves manner env c Q :=
  ⟨moves, rfl, after⟩

theorem emit {e : Event K σ} {Q : Unit → Context K σ → Prop} (tells : manner.tells e)
    (after : Q () c) : (Action.emit e).Behaves manner env c Q :=
  ⟨tells, rfl, after⟩

theorem warn {w : Warning} {Q : Unit → Context K σ → Prop} (after : Q () c) :
    (Action.warn w).Behaves manner env c Q :=
  Obeys.warn w ⟨manner.tells_warning w, rfl⟩ ⟨rfl, after⟩

theorem warnAt {keyword description : String} {code : WarningCode} {Q : Unit → Context K σ → Prop}
    (after : Q () c) : (Action.warnAt keyword code description).Behaves manner env c Q :=
  environment (warn after)

theorem warnError {keyword : String} {e : OperatorError} {Q : Unit → Context K σ → Prop}
    (after : Q () c) : (Action.warnError keyword e).Behaves manner env c Q :=
  environment (warn after)

/-- A manner that allows more is kept, too. -/
theorem of_le {more : Manner K σ} (le : manner.Le more) {x : Action K σ α}
    (behaves : x.Behaves manner env c Q) : x.Behaves more env c Q := by
  refine Obeys.mono (Obeys.of_allows behaves ?_ rfl rfl) (fun _ _ _ h => h) ?_
  · intro fault deed allowed
    cases deed with
    | change before after => exact le.moves _ _ allowed
    | tell c e => exact le.tells _ allowed
    | nest c content scope setup => exact ⟨allowed.1, le.opens _ _ _ _ allowed.2⟩
  · rintro e fault _ ⟨same, named⟩
    exact ⟨same, fun none => le.fails e (named none)⟩

/-- A nested stream after which a glyph or the like is done with, unless a fault has to be passed
on. -/
theorem nestedHandle {content : Bytes} {scope : σ} {setup : GraphicsState K σ → GraphicsState K σ}
    {f : OperatorError → Action K σ Unit} {Q : Unit → Context K σ → Prop}
    (opens : manner.opens c content scope setup) (value : Q () c)
    (fatal : ∀ cause, f (.fatal cause) = MonadExcept.throw (OperatorError.fatal cause))
    (other : ∀ e, e.fault? = none → (f e).Behaves manner env c Q) :
    ((nested content scope setup).handle f).Behaves manner env c Q := by
  simp only [Behaves, obeys_handle, obeys_nested]
  refine ⟨⟨rfl, opens⟩, fun answer => (obeys_ofExcept answer).mpr ⟨?_, ?_⟩⟩
  · rintro ⟨⟩ rfl
    exact ⟨rfl, value⟩
  · rintro e rfl
    cases fault : e.fault? with
    | none =>
        have obeys := other e fault
        simp only [Manner.monitor, faultOf?, fault]
        exact obeys
    | some cause =>
        rw [OperatorError.fault?_eq_some.mp fault, fatal]
        exact ⟨rfl, fun h => by cases h⟩

/-- A run of an action that keeps to a manner, with a relation that all that the manner allows
keeps. -/
theorem run {nested : NestedRun K σ} {environment : RunState K σ → Environment K σ}
    {L : Option ContentError → Context K σ → List (Entry K σ) → Prop} (restores : nested.Restores)
    {s : RunState K σ} (stable : ∀ t, t.place = s.place → environment t = env)
    (keeps : manner.monitor.Keeps nested s.depth L) {x : Action K σ α} {log : List (Entry K σ)}
    (start : L none s.toContext log) (behaves : x.Behaves manner env s.toContext Q) :
    let o := x.run environment nested s
    ∃ fault, L fault o.state.toContext (log ++ o.log) ∧
      (∀ a, o.result = .ok a → fault = none ∧ Q a o.state.toContext) ∧
      ∀ e, o.result = .error e → e.fault? = fault ∧ (fault = none → manner.fails e) :=
  Obeys.run restores stable keeps start behaves

end Behaves

/-- From a context an action keeps to a manner, and whatever its result is, the context is the same
in the end. -/
def Settles (manner : Manner K σ) (env : Environment K σ) (x : Action K σ Unit) (c : Context K σ) :
    Prop :=
  x.Obeys manner.monitor env (fun _ fault c' => fault = none ∧ c' = c)
    (fun e fault c' => (e.fault? = fault ∧ (fault = none → manner.fails e)) ∧ c' = c) none c

namespace Settles

variable {manner : Manner K σ} {env : Environment K σ} {c : Context K σ}

theorem behaves {x : Action K σ Unit} (settles : x.Settles manner env c) :
    x.Behaves manner env c fun _ c' => c' = c :=
  Obeys.mono settles (fun _ _ _ h => h) fun _ _ _ h => h.1

theorem checkDepth {rest : Action K σ Unit} (fails : ∀ e, manner.fails e)
    (next : rest.Settles manner env c) :
    (Action.checkDepth >>= fun _ => rest).Settles manner env c := by
  simp only [Settles, Action.checkDepth, obeys_bind, obeys_environment]
  split
  · exact ⟨⟨rfl, fun _ => fails _⟩, rfl⟩
  · exact next

theorem environment {f : Environment K σ → Action K σ Unit} (next : (f env).Settles manner env c) :
    (Action.environment >>= f).Settles manner env c := next

theorem state {f : GraphicsState K σ → Action K σ Unit} (next : (f c.state).Settles manner env c) :
    (Action.state >>= f).Settles manner env c := next

/-- A nested stream between two events. -/
theorem between {first last : Event K σ} {content : Bytes} {scope : σ}
    {setup : GraphicsState K σ → GraphicsState K σ} (opens : manner.opens c content scope setup)
    (tells : ∀ e, manner.tells e) (fails : ∀ e, manner.fails e) :
    (emit first >>= fun _ => (nested content scope setup).andFinally (emit last)).Settles
      manner env c := by
  simp only [Settles, obeys_bind, obeys_andFinally, obeys_nested, obeys_emit]
  refine ⟨tells first, ⟨rfl, opens⟩, fun answer => (obeys_ofExcept answer).mpr ⟨?_, ?_⟩⟩
  · rintro ⟨⟩ rfl
    exact ⟨tells last, rfl, rfl⟩
  · rintro e rfl
    exact ⟨tells last, ⟨rfl, fun _ => fails e⟩, rfl⟩

/-- Something at the end that is done whatever has become of the action before it. It cannot fail
and opens nothing. -/
theorem andFinally {x last : Action K σ Unit} {Q : Unit → Context K σ → Prop}
    (settles : x.Settles manner env c)
    (finish : ∀ fault, last.Obeys manner.monitor env (fun _ fault' c' => fault' = fault ∧ Q () c')
      (fun _ _ _ => False) fault c) :
    (x.andFinally last).Behaves manner env c Q := by
  simp only [Behaves, obeys_andFinally]
  refine Obeys.mono settles ?_ ?_
  · rintro _ fault c' ⟨rfl, rfl⟩
    exact Obeys.mono (finish none) (fun _ _ _ h => h) fun _ _ _ h => h.elim
  · rintro e fault c' ⟨ended, rfl⟩
    refine Obeys.mono (finish fault) ?_ fun _ _ _ h => h.elim
    rintro _ fault' c'' ⟨rfl, _⟩
    exact ended

end Settles

-- From here on the rules are used; unfolding would carry out look-ups in whole tables.
attribute [irreducible] Behaves Settles

end Action

end PdfContent
