import PdfContent.Proofs.Manner

/-!
# Runs that place text alike

Two states are alike if they differ at most in what only painting depends on: colours and colour
spaces, the clip, the path and the pending clip. `Action.Agrees` relates two actions that go alike
from states that are alike: step by step they make changes after which the states are alike again,
show the same glyphs, open the same nested streams, and come to the same result. So their runs place
the same text, provided that nested streams do (`Agrees.run`).

The relation is an induction over both actions at once. It is proved of an operator by going along
the operator's definition with one rule for each step.
-/

namespace PdfContent

variable {K σ α β : Type}

section Alike

variable [Scalar K]

/-- A graphics state with what only painting depends on replaced by what a page starts with. -/
def GraphicsState.forText (s : GraphicsState K σ) : GraphicsState K σ :=
  { s with
    strokeSpace := .deviceGray
    fillSpace := .deviceGray
    strokeColor := .black
    fillColor := .black
    clip := .unrestricted }

/-- The parts of a context that text depends on. -/
def Context.forText (c : Context K σ) : Context K σ where
  states := ⟨c.states.current.forText, c.states.saved.map GraphicsState.forText⟩
  text := c.text
  compatibility := c.compatibility
  path := .empty
  pendingClip := none

def GraphicsState.Alike (s t : GraphicsState K σ) : Prop := s.forText = t.forText

def Context.Alike (c d : Context K σ) : Prop := c.forText = d.forText

structure RunState.Alike (s t : RunState K σ) : Prop where
  context : s.toContext.Alike t.toContext
  depth : s.depth = t.depth
  index : s.index = t.index

namespace GraphicsState.Alike

variable {s t : GraphicsState K σ}

theorem ctm (alike : s.Alike t) : s.ctm = t.ctm := (congrArg GraphicsState.ctm alike :)

theorem text (alike : s.Alike t) : s.text = t.text := (congrArg GraphicsState.text alike :)

/-- Changes whose effect on the parts for text depends on nothing else keep states alike. -/
theorem map {f : GraphicsState K σ → GraphicsState K σ}
    (textual : ∀ s, (f s).forText = (f s.forText).forText) (alike : s.Alike t) :
    (f s).Alike (f t) := by
  rw [Alike, textual, alike, ← textual]

end GraphicsState.Alike

namespace Context.Alike

variable {c d : Context K σ}

theorem refl (c : Context K σ) : c.Alike c := rfl

theorem state (alike : c.Alike d) : c.state.Alike d.state :=
  (congrArg (fun c : Context K σ => c.states.current) alike :)

theorem saved (alike : c.Alike d) :
    c.states.saved.map GraphicsState.forText = d.states.saved.map GraphicsState.forText :=
  (congrArg (fun c : Context K σ => c.states.saved) alike :)

theorem text (alike : c.Alike d) : c.text = d.text := (congrArg Context.text alike :)

theorem compatibility (alike : c.Alike d) : c.compatibility = d.compatibility :=
  (congrArg Context.compatibility alike :)

/-- Contexts are alike if they are in their parts. -/
theorem of_parts {c d : Context K σ} (state : c.state.Alike d.state)
    (saved : c.states.saved.map GraphicsState.forText = d.states.saved.map GraphicsState.forText)
    (text : c.text = d.text) (compatibility : c.compatibility = d.compatibility) : c.Alike d := by
  have current : c.states.current.forText = d.states.current.forText := state
  simp only [Alike, forText, current, saved, text, compatibility]

theorem updateState (alike : c.Alike d) {f g : GraphicsState K σ → GraphicsState K σ}
    (states : (f c.state).Alike (g d.state)) : (c.updateState f).Alike (d.updateState g) :=
  of_parts states alike.saved alike.text alike.compatibility

theorem setText (alike : c.Alike d) (text : Option (TextObject K)) :
    ({ c with text } : Context K σ).Alike { d with text } :=
  of_parts alike.state alike.saved rfl alike.compatibility

theorem save (alike : c.Alike d) :
    ({ c with states := c.states.save } : Context K σ).Alike { d with states := d.states.save } :=
  of_parts alike.state (by
    have current : c.states.current.forText = d.states.current.forText := alike.state
    simp only [StateStack.saved_save, List.map_cons, current, alike.saved])
    alike.text alike.compatibility

end Context.Alike

end Alike

/-- Glyph procedures are not run. -/
def Environment.DrawsNoGlyph (env : Environment K σ) : Prop :=
  env.receiver = .textPlacement ∨ env.options.runGlyphProcedures = false

/-- Surroundings that make no difference to where text is placed. -/
structure Environment.Alike (env env' : Environment K σ) : Prop where
  maxDepth : env.options.maxDepth = env'.options.maxDepth
  collectWarnings : env.options.collectWarnings = env'.options.collectWarnings
  resolver : env.resolver = env'.resolver
  scope : env.scope = env'.scope
  place : env.place = env'.place
  first : env.DrawsNoGlyph
  second : env'.DrawsNoGlyph

namespace Action

variable [Scalar K]

/-- Two actions go alike in alike contexts, up to values related by `V` or the same error. -/
inductive Agrees (V : α → α → Prop) : Action K σ α → Action K σ α → Prop
  | ok {a b} (value : V a b) : Agrees V (.finish (.ok a)) (.finish (.ok b))
  | error (e) : Agrees V (.finish (.error e)) (.finish (.error e))
  | look {next next'}
    (later : ∀ env env' c d, env.Alike env' → c.Alike d → Agrees V (next env c) (next' env' d)) :
    Agrees V (.look next) (.look next')
  | change {f g next next'} (alike : ∀ c d : Context K σ, c.Alike d → (f c).Alike (g d))
    (later : Agrees V next next') : Agrees V (.change f next) (.change g next')
  | tell {e e' : Event K σ} {next next'} (glyph : e.glyph? = e'.glyph?)
    (later : Agrees V next next') : Agrees V (.tell e next) (.tell e' next')
  | nest {setup setup' next next'} (content) (scope)
    (alike : ∀ s t : GraphicsState K σ, s.Alike t → (setup s).Alike (setup' t))
    (later : ∀ answer, Agrees V (next answer) (next' answer)) :
    Agrees V (.nest content scope setup next) (.nest content scope setup' next')

namespace Agrees

variable {V : α → α → Prop} {W : β → β → Prop} {x y : Action K σ β} {f g : β → Action K σ α}

theorem pure {a b : α} (value : V a b) : Agrees V (Pure.pure a : Action K σ α) (Pure.pure b) :=
  .ok value

theorem throw (e : OperatorError) :
    Agrees V (MonadExcept.throw e : Action K σ α) (MonadExcept.throw e) := .error e

/-- Two parts of actions in turn. -/
theorem bind (first : Agrees W x y) (second : ∀ a b, W a b → Agrees V (f a) (g b)) :
    Agrees V (x >>= f) (y >>= g) := by
  induction first with
  | ok value => exact second _ _ value
  | error e => exact .error e
  | look _ ih => exact .look ih
  | change alike _ ih => exact .change alike ih
  | tell glyph _ ih => exact .tell glyph ih
  | nest content scope alike _ ih => exact .nest content scope alike ih

/-- What follows on an action that has no value to speak of. -/
theorem next {x y : Action K σ Unit} {u v : Action K σ α} (first : Agrees (fun _ _ => True) x y)
    (second : Agrees V u v) : Agrees V (x >>= fun _ => u) (y >>= fun _ => v) :=
  first.bind fun _ _ _ => second

/-- Results are related if their values are or if they are the same error. -/
def OnValues (V : α → α → Prop) : Except OperatorError α → Except OperatorError α → Prop
  | .ok a, .ok b => V a b
  | .error e, .error e' => e = e'
  | _, _ => False

theorem attempt (agrees : Agrees W x y) : Agrees (OnValues W) x.attempt y.attempt := by
  induction agrees with
  | ok value => exact .ok value
  | error e => exact .ok rfl
  | look _ ih => exact .look ih
  | change alike _ ih => exact .change alike ih
  | tell glyph _ ih => exact .tell glyph ih
  | nest content scope alike _ ih => exact .nest content scope alike ih

theorem ofExcept {result result' : Except OperatorError α} (related : OnValues V result result') :
    Agrees V (Action.ofExcept result : Action K σ α) (Action.ofExcept result') := by
  match result, result', related with
  | .ok a, .ok b, value => exact .ok value
  | .error e, .error _, rfl => exact .error e

theorem andFinally {u v : Action K σ Unit} (agrees : Agrees W x y)
    (last : Agrees (fun _ _ => True) u v) : Agrees W (x.andFinally u) (y.andFinally v) :=
  agrees.attempt.bind fun _ _ related => last.next (.ofExcept related)

theorem nested {setup : GraphicsState K σ → GraphicsState K σ} (content : Bytes) (scope : σ)
    (textual : ∀ s, (setup s).forText = (setup s.forText).forText) :
    Agrees (fun _ _ => True) (Action.nested content scope setup)
      (Action.nested content scope setup) :=
  .nest content scope (fun _ _ alike => alike.map textual) fun answer => by
    cases answer with
    | ok _ => exact .ok trivial
    | error e => exact .error e

theorem read {result : Except OperatorError β}
    (value : ∀ b, result = .ok b → Agrees V (f b) (g b)) :
    Agrees V (Action.ofExcept result >>= f) (Action.ofExcept result >>= g) := by
  cases result with
  | error e => exact .error e
  | ok b => exact value b rfl

theorem environment {f g : Environment K σ → Action K σ α}
    (later : ∀ env env', env.Alike env' → Agrees V (f env) (g env')) :
    Agrees V (Action.environment >>= f) (Action.environment >>= g) :=
  .look fun env env' _ _ surroundings _ => later env env' surroundings

theorem context {f g : Context K σ → Action K σ α}
    (later : ∀ c d, c.Alike d → Agrees V (f c) (g d)) :
    Agrees V (Action.context >>= f) (Action.context >>= g) :=
  .look fun _ _ c d _ alike => later c d alike

theorem state {f g : GraphicsState K σ → Action K σ α}
    (later : ∀ s t, s.Alike t → Agrees V (f s) (g t)) :
    Agrees V (Action.state >>= f) (Action.state >>= g) :=
  .look fun _ _ _ _ _ alike => later _ _ alike.state

theorem modify {f g : Context K σ → Context K σ} (alike : ∀ c d, c.Alike d → (f c).Alike (g d)) :
    Agrees (fun _ _ => True) (Action.modify f) (Action.modify g) :=
  .change alike (.ok trivial)

theorem updateState {f : GraphicsState K σ → GraphicsState K σ}
    (textual : ∀ s, (f s).forText = (f s.forText).forText) :
    Agrees (fun _ _ => True) (Action.updateState f) (Action.updateState f) :=
  modify fun _ _ alike => alike.updateState (alike.state.map textual)

theorem emit {e e' : Event K σ} (glyph : e.glyph? = e'.glyph?) :
    Agrees (fun _ _ => True) (Action.emit e) (Action.emit e') :=
  .tell glyph (.ok trivial)

theorem warn (w : Warning) :
    Agrees (fun _ _ => True) (Action.warn w : Action K σ Unit) (Action.warn w) := by
  refine .environment fun env env' surroundings => ?_
  rw [surroundings.collectWarnings]
  split
  · exact .emit rfl
  · exact .ok trivial

theorem warnAt (keyword : String) (code : WarningCode) (description : String) :
    Agrees (fun _ _ => True) (Action.warnAt keyword code description : Action K σ Unit)
      (Action.warnAt keyword code description) := by
  refine .environment fun env env' surroundings => ?_
  rw [surroundings.place]
  exact .warn _

theorem checkDepth :
    Agrees (fun _ _ => True) (Action.checkDepth : Action K σ Unit) Action.checkDepth := by
  refine .environment fun env env' surroundings => ?_
  rw [surroundings.maxDepth, surroundings.place]
  split
  · exact .error _
  · exact .ok trivial

end Agrees

end Action

/-- Results that are the same, states that are alike, and the same glyphs. -/
structure Outcome.Alike [Scalar K] {ε : Type} (o o' : Outcome ε K σ α) : Prop where
  result : o.result = o'.result
  state : o.state.Alike o'.state
  glyphs : Entry.glyphs o.log = Entry.glyphs o'.log

/-- Two ways to run nested streams go alike from alike states. -/
def NestedRun.Alike [Scalar K] (nested nested' : NestedRun K σ) : Prop :=
  ∀ content scope setup setup' s t,
    (∀ s t : GraphicsState K σ, s.Alike t → (setup s).Alike (setup' t)) → s.Alike t →
    (nested content scope setup s).Alike (nested' content scope setup' t)

/-- Actions that agree have alike outcomes. -/
theorem Action.Agrees.run [Scalar K] {V : α → α → Prop} (equal : ∀ a b, V a b → a = b)
    {x y : Action K σ α} {nested nested' : NestedRun K σ}
    {environment environment' : RunState K σ → Environment K σ} (nests : nested.Alike nested')
    (surroundings : ∀ s t, s.Alike t → (environment s).Alike (environment' t))
    (agrees : Agrees V x y) {s t : RunState K σ} (alike : s.Alike t) :
    (x.run environment nested s).Alike (y.run environment' nested' t) := by
  induction agrees generalizing s t with
  | ok value => exact ⟨congrArg Except.ok (equal _ _ value), alike, rfl⟩
  | error e => exact ⟨rfl, alike, rfl⟩
  | look _ ih => exact ih _ _ _ _ (surroundings s t alike) alike.context alike
  | change keeps _ ih => exact ih ⟨keeps _ _ alike.context, alike.depth, alike.index⟩
  | tell glyph _ ih =>
      have rest := ih alike
      refine ⟨rest.result, rest.state, ?_⟩
      simp only [Action.run, Outcome.log_after, Entry.glyphs_append, Entry.glyphs_event, glyph,
        rest.glyphs]
  | @nest setup setup' _ _ content scope keeps _ ih =>
      have within := nests content scope setup setup' s t keeps alike
      have rest := ih (nested content scope setup s).result within.state
      simp only [Action.run]
      rw [← within.result]
      refine ⟨rest.result, rest.state, ?_⟩
      simp only [Outcome.log_after, Entry.glyphs_append, within.glyphs, rest.glyphs]

end PdfContent
