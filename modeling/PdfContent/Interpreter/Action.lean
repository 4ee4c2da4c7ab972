import PdfContent.Interpreter.Event

/-!
# Actions

An `Action` is what an operator does, step by step: it looks at its surroundings and the context, changes
the context, tells the device something, has content run as a nested stream, and in the end finishes with
a value or an error. What it changed and told before an error stays.

Actions only ask for a nested stream; `Action.run` takes the way in which nested streams are run as an
argument. So actions can neither open a stream by themselves nor touch what belongs to the running of
streams: depth, operator index and stash are not part of the context.
-/

namespace PdfContent

/-- What a computation leaves behind. -/
structure Outcome (ε K σ α : Type) where
  result : Except ε α
  state : RunState K σ
  log : List (Entry K σ)

namespace Outcome

variable {ε K σ α β : Type}

/-- The outcome with something logged before it. -/
def after (o : Outcome ε K σ α) (log : List (Entry K σ)) : Outcome ε K σ α := { o with log := log ++ o.log }

@[simp] theorem result_after (o : Outcome ε K σ α) (log : List (Entry K σ)) :
    (o.after log).result = o.result := rfl

@[simp] theorem state_after (o : Outcome ε K σ α) (log : List (Entry K σ)) :
    (o.after log).state = o.state := rfl

@[simp] theorem log_after (o : Outcome ε K σ α) (log : List (Entry K σ)) :
    (o.after log).log = log ++ o.log := rfl

@[simp] theorem after_after (o : Outcome ε K σ α) (first second : List (Entry K σ)) :
    (o.after second).after first = o.after (first ++ second) := by
  simp [after, List.append_assoc]

/-- Goes on from the value of an outcome; an error stays. -/
def andThen (o : Outcome ε K σ α) (f : α → RunState K σ → Outcome ε K σ β) : Outcome ε K σ β :=
  match o.result with
  | .ok a => (f a o.state).after o.log
  | .error e => ⟨.error e, o.state, o.log⟩

theorem andThen_of_ok {o : Outcome ε K σ α} {a : α} (h : o.result = .ok a)
    (f : α → RunState K σ → Outcome ε K σ β) : o.andThen f = (f a o.state).after o.log := by
  simp only [andThen, h]

theorem andThen_of_error {o : Outcome ε K σ α} {e : ε} (h : o.result = .error e)
    (f : α → RunState K σ → Outcome ε K σ β) : o.andThen f = ⟨.error e, o.state, o.log⟩ := by
  simp only [andThen, h]

theorem after_andThen (o : Outcome ε K σ α) (log : List (Entry K σ))
    (f : α → RunState K σ → Outcome ε K σ β) : (o.after log).andThen f = (o.andThen f).after log := by
  simp only [andThen, result_after, state_after, log_after]
  cases o.result <;> simp [after, List.append_assoc]

end Outcome

/-- Who is told what a run does. A device draws; for placing text it is enough to know which glyphs are
shown. -/
inductive Receiver
  | device
  | textPlacement
  deriving DecidableEq, Repr

/-- What an operator can read besides the context. -/
structure Environment (K σ : Type) where
  options : Options
  receiver : Receiver
  /-- The map to device space that the run started with. -/
  baseMatrix : Matrix K
  resolver : Resolver K σ
  /-- Where the resources of the running stream are looked up. -/
  scope : σ
  place : Place

inductive Action (K σ α : Type)
  | finish (result : Except OperatorError α)
  | look (next : Environment K σ → Context K σ → Action K σ α)
  | change (f : Context K σ → Context K σ) (next : Action K σ α)
  | tell (e : Event K σ) (next : Action K σ α)
  /-- Has content run as a nested stream: the content, the scope of its resources, and how the graphics
  state that it starts with is made from the current one. -/
  | nest (content : Bytes) (scope : σ) (setup : GraphicsState K σ → GraphicsState K σ)
      (next : Except OperatorError Unit → Action K σ α)

namespace Action

variable {K σ α β : Type}

def pure (a : α) : Action K σ α := .finish (.ok a)

def fail (e : OperatorError) : Action K σ α := .finish (.error e)

def bind : Action K σ α → (α → Action K σ β) → Action K σ β
  | .finish (.ok a), f => f a
  | .finish (.error e), _ => fail e
  | .look next, f => .look fun env c => (next env c).bind f
  | .change g next, f => .change g (next.bind f)
  | .tell e next, f => .tell e (next.bind f)
  | .nest content scope setup next, f => .nest content scope setup fun r => (next r).bind f

/-- Makes the result a value, so that something can be done whatever it is. -/
def attempt : Action K σ α → Action K σ (Except OperatorError α)
  | .finish result => pure result
  | .look next => .look fun env c => (next env c).attempt
  | .change g next => .change g next.attempt
  | .tell e next => .tell e next.attempt
  | .nest content scope setup next => .nest content scope setup fun r => (next r).attempt

instance : Monad (Action K σ) where
  pure := pure
  bind := bind

instance : LawfulMonad (Action K σ) :=
  .mk' (Action K σ)
    (fun x => by
      change x.bind pure = x
      induction x with
      | finish result => cases result <;> rfl
      | look next ih => simp only [bind, ih]
      | change f next ih => simp only [bind, ih]
      | tell e next ih => simp only [bind, ih]
      | nest content scope setup next ih => simp only [bind, ih])
    (fun _ _ => rfl)
    (fun x f g => by
      change (x.bind f).bind g = x.bind fun a => (f a).bind g
      induction x with
      | finish result => cases result <;> rfl
      | look next ih => simp only [bind, ih]
      | change h next ih => simp only [bind, ih]
      | tell e next ih => simp only [bind, ih]
      | nest content scope setup next ih => simp only [bind, ih])

/-- What a partial function gives, or its error. -/
def ofExcept (result : Except OperatorError α) : Action K σ α := .finish result

/-- Continues with `f` where an error arose; changes and log up to there stay. -/
def handle (x : Action K σ α) (f : OperatorError → Action K σ α) : Action K σ α := do
  match ← x.attempt with
  | .ok a => return a
  | .error e => f e

instance : MonadExceptOf OperatorError (Action K σ) where
  throw := fail
  tryCatch := handle

/-- Does `x`, then `last` whatever became of `x`; the result of `x` stays the outcome. -/
def andFinally (x : Action K σ α) (last : Action K σ Unit) : Action K σ α := do
  let result ← x.attempt
  last
  ofExcept result

def environment : Action K σ (Environment K σ) := .look fun env _ => pure env

def context : Action K σ (Context K σ) := .look fun _ c => pure c

/-- The current graphics state. -/
def state : Action K σ (GraphicsState K σ) := .look fun _ c => pure c.state

def modify (f : Context K σ → Context K σ) : Action K σ Unit := .change f (pure ())

/-- Changes the current graphics state. -/
def updateState (f : GraphicsState K σ → GraphicsState K σ) : Action K σ Unit :=
  modify fun c => c.updateState f

/-- Changes the text state. -/
def updateText (f : TextState K σ → TextState K σ) : Action K σ Unit :=
  updateState fun s => { s with text := f s.text }

/-- Tells the device something. -/
def emit (e : Event K σ) : Action K σ Unit := .tell e (pure ())

/-- Reports a warning, if warnings are wanted. -/
def warn (w : Warning) : Action K σ Unit := do
  if (← environment).options.collectWarnings then emit (.warning w)

/-- Reports a warning at the operator that is being carried out. -/
def warnAt (keyword : String) (code : WarningCode) (description : String) : Action K σ Unit := do
  let place := (← environment).place
  warn ((Warning.withCode code description).atOperator keyword place.index place.depth)

/-- Reports the error of an operator. -/
def warnError (keyword : String) (e : OperatorError) : Action K σ Unit := do
  let place := (← environment).place
  warn (Warning.ofError e keyword place.index place.depth)

/-- Runs content as a nested stream. -/
def nested (content : Bytes) (scope : σ) (setup : GraphicsState K σ → GraphicsState K σ) :
    Action K σ Unit :=
  .nest content scope setup .finish

/-- Fails where no nested stream may be opened any more. -/
def checkDepth : Action K σ Unit := do
  let env ← environment
  if env.options.maxDepth ≤ env.place.depth then fail (.recursionLimit env.options.maxDepth)

end Action

/-- A way to run content as a nested stream. -/
abbrev NestedRun (K σ : Type) :=
  Bytes → σ → (GraphicsState K σ → GraphicsState K σ) → RunState K σ → Outcome OperatorError K σ Unit

/-- Carries out an action, given what it reads in each state and how nested streams are run. -/
def Action.run {K σ α : Type} (environment : RunState K σ → Environment K σ) (nested : NestedRun K σ) :
    Action K σ α → RunState K σ → Outcome OperatorError K σ α
  | .finish result, s => ⟨result, s, []⟩
  | .look next, s => (next (environment s) s.toContext).run environment nested s
  | .change f next, s => next.run environment nested (s.updateContext f)
  | .tell e next, s => (next.run environment nested s).after [.event e]
  | .nest content scope setup next, s =>
    let o := nested content scope setup s
    ((next o.result).run environment nested o.state).after o.log

@[simp] theorem Action.run_pure {K σ α : Type} (environment : RunState K σ → Environment K σ)
    (nested : NestedRun K σ) (a : α) (s : RunState K σ) :
    (Pure.pure a : Action K σ α).run environment nested s = ⟨.ok a, s, []⟩ := rfl

/-- An action in two parts is run part after part. -/
theorem Action.run_bind {K σ α β : Type} (environment : RunState K σ → Environment K σ)
    (nested : NestedRun K σ) (x : Action K σ α) (f : α → Action K σ β) (s : RunState K σ) :
    (x >>= f).run environment nested s =
      (x.run environment nested s).andThen fun a => (f a).run environment nested := by
  change (x.bind f).run environment nested s = _
  induction x generalizing s with
  | finish result => cases result <;> rfl
  | look next ih => exact ih _ _ s
  | change g next ih => exact ih (s.updateContext g)
  | tell e next ih => simp only [bind, run, ih, Outcome.after_andThen]
  | nest content scope setup next ih => simp only [bind, run, ih, Outcome.after_andThen]

end PdfContent
