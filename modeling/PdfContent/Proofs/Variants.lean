import Mathlib.Data.List.Forall2
import PdfContent.Proofs.Framing

/-!
# Runs with other content in the resources

Forms, pattern cells and the glyphs of Type 3 fonts are drawn by content that the resources hold.
Resources are variants of one another if they differ in such content only, and there as a relation
allows: one relation for forms and cells, another for glyph procedures. Fonts are part of graphics
states, so states are variants, too, and whatever carries a state. If glyph procedures stay as they
are, variants of states are equal.

`Action.Matches` relates two actions that do the same up to variants: step by step they change
contexts that are variants so that they are variants again, tell the device variants of the same
events, and open nested streams on content that the first relation allows. They may be at different
places in the run, which shows in warnings and nowhere else.
-/

namespace PdfContent

variable {K σ α β : Type} (ρ γ : Bytes → Bytes → Prop)

/-! ### Variants -/

structure GlyphProcedure.Variant (p q : GlyphProcedure σ) : Prop where
  content : γ p.content q.content
  scope : p.scope = q.scope

/-- The same font with other content in its glyph procedures. -/
inductive Font.Variant : Font K σ → Font K σ → Prop
  | mk (font : Font K σ) {procedure? : UInt32 → Option (GlyphProcedure σ)}
    (procedures : ∀ code,
      Option.Rel (GlyphProcedure.Variant γ) (font.procedure? code) (procedure? code)) :
    Variant font { font with procedure? }

/-- The state with another font selected, under the same name and at the same size. -/
def GraphicsState.withFont (s : GraphicsState K σ) (font : Option (Font K σ)) :
    GraphicsState K σ :=
  { s with text := { s.text with font } }

inductive GraphicsState.Variant : GraphicsState K σ → GraphicsState K σ → Prop
  | mk (s : GraphicsState K σ) {font : Option (Font K σ)}
    (fonts : Option.Rel (Font.Variant γ) s.text.font font) : Variant s (s.withFont font)

inductive Context.Variant : Context K σ → Context K σ → Prop
  | mk (c : Context K σ) {states : StateStack K σ}
    (current : c.states.current.Variant γ states.current)
    (saved : List.Forall₂ (GraphicsState.Variant γ) c.states.saved states.saved) :
    Variant c { c with states }

/-- The states of two runs in streams of the same depth. The runs may be at different operators. -/
structure RunState.Variant (s t : RunState K σ) : Prop where
  context : s.toContext.Variant γ t.toContext
  depth : s.depth = t.depth

inductive GlyphEvent.Variant : GlyphEvent K σ → GlyphEvent K σ → Prop
  | mk (glyph : GlyphEvent K σ) {font : Font K σ} (fonts : glyph.font.Variant γ font) :
    Variant glyph { glyph with font }

/-- The same event with a variant of the state. A warning may be any other. -/
inductive Event.Variant : Event K σ → Event K σ → Prop
  | same (e : Event K σ) : Variant e e
  | stroke (path : Path K) {s t : GraphicsState K σ} (states : s.Variant γ t) :
    Variant (.stroke path s) (.stroke path t)
  | fill (path : Path K) (rule : FillRule) {s t : GraphicsState K σ} (states : s.Variant γ t) :
    Variant (.fill path rule s) (.fill path rule t)
  | fillStroke (path : Path K) (rule : FillRule) {s t : GraphicsState K σ}
    (states : s.Variant γ t) : Variant (.fillStroke path rule s) (.fillStroke path rule t)
  | shading (name : String) (shading : Shading K) {s t : GraphicsState K σ}
    (states : s.Variant γ t) : Variant (.shading name shading s) (.shading name shading t)
  | image (image : ImageEvent K) {s t : GraphicsState K σ} (states : s.Variant γ t) :
    Variant (.image image s) (.image image t)
  | glyph {g g' : GlyphEvent K σ} {s t : GraphicsState K σ} (glyphs : g.Variant γ g')
    (states : s.Variant γ t) : Variant (.glyph g s) (.glyph g' t)
  | warning (w w' : Warning) : Variant (.warning w) (.warning w')

inductive Form.Variant : Form K σ → Form K σ → Prop
  | mk (form : Form K σ) {content : Bytes} (contents : ρ form.content content) :
    Variant form { form with content }

inductive TilingPattern.Variant : TilingPattern K σ → TilingPattern K σ → Prop
  | mk (pattern : TilingPattern K σ) {content : Bytes} (contents : ρ pattern.content content) :
    Variant pattern { pattern with content }

inductive XObject.Variant : XObject K σ → XObject K σ → Prop
  | form {form form' : Form K σ} (forms : form.Variant ρ form') : Variant (.form form) (.form form')
  | image (image : Image) : Variant (.image image) (.image image)
  | postScript : Variant .postScript .postScript

inductive StateParameters.Variant : StateParameters K σ → StateParameters K σ → Prop
  | mk (p : StateParameters K σ) {font : Option (Font K σ × K)}
    (fonts : Option.Rel (fun f g => f.1.Variant γ g.1 ∧ f.2 = g.2) p.font font) :
    Variant p { p with font }

inductive Pattern.Variant : Pattern K σ → Pattern K σ → Prop
  | tiling {pattern pattern' : TilingPattern K σ} (patterns : pattern.Variant ρ pattern') :
    Variant (.tiling pattern) (.tiling pattern')
  | shading (shading : Shading K) (matrix : Matrix K)
    {parameters parameters' : Option (StateParameters K σ)}
    (related : Option.Rel (StateParameters.Variant γ) parameters parameters') :
    Variant (.shading shading matrix parameters) (.shading shading matrix parameters')

/-- Under each name there are variants of the same resource. -/
structure Resolver.Variant (r r' : Resolver K σ) : Prop where
  font : ∀ scope name, Option.Rel (Font.Variant γ) (r.font scope name) (r'.font scope name)
  colorSpace : r.colorSpace = r'.colorSpace
  xobject : ∀ scope name, Option.Rel (XObject.Variant ρ) (r.xobject scope name)
    (r'.xobject scope name)
  stateParameters : ∀ scope name, Option.Rel (StateParameters.Variant γ)
    (r.stateParameters scope name) (r'.stateParameters scope name)
  shading : r.shading = r'.shading
  pattern : ∀ scope name, Option.Rel (Pattern.Variant ρ γ) (r.pattern scope name)
    (r'.pattern scope name)
  properties : r.properties = r'.properties

/-- The surroundings of two operators in streams of the same depth. -/
structure Environment.Variant (env env' : Environment K σ) : Prop where
  options : env.options = env'.options
  receiver : env.receiver = env'.receiver
  baseMatrix : env.baseMatrix = env'.baseMatrix
  resolver : env.resolver.Variant ρ γ env'.resolver
  scope : env.scope = env'.scope
  depth : env.place.depth = env'.place.depth

/-- Errors are the same, but for the fault if content had one. -/
inductive OperatorError.Variant : OperatorError → OperatorError → Prop
  | same (e : OperatorError) : Variant e e
  | fatal (cause cause' : ContentError) : Variant (.fatal cause) (.fatal cause')

/-- Results are related if their values are or their errors are. -/
inductive SameResult (V : α → β → Prop) : Except OperatorError α → Except OperatorError β → Prop
  | ok {a : α} {b : β} (value : V a b) : SameResult V (.ok a) (.ok b)
  | error {e e' : OperatorError} (errors : e.Variant e') : SameResult V (.error e) (.error e')

/-- Both are missing, or both are there and related. -/
theorem cases_of_rel {r : α → β → Prop} {x : Option α} {y : Option β} (related : Option.Rel r x y) :
    (x = none ∧ y = none) ∨ ∃ a b, x = some a ∧ y = some b ∧ r a b := by
  cases related with
  | none => exact .inl ⟨rfl, rfl⟩
  | some values => exact .inr ⟨_, _, rfl, rfl, values⟩

/-! ### Variants that are equal -/

section Reflexivity

variable {γ : Bytes → Bytes → Prop} (same : ∀ content, γ content content)

include same

theorem Font.Variant.refl (font : Font K σ) : font.Variant γ font := by
  refine .mk font fun code => ?_
  cases font.procedure? code with
  | none => exact .none
  | some procedure => exact .some ⟨same _, rfl⟩

theorem GraphicsState.Variant.refl (s : GraphicsState K σ) : s.Variant γ s := by
  have fonts : Option.Rel (Font.Variant γ) s.text.font s.text.font := by
    cases s.text.font with
    | none => exact .none
    | some font => exact .some (.refl same font)
  exact .mk s fonts

theorem RunState.Variant.refl (s : RunState K σ) : s.Variant γ s :=
  ⟨.mk _ (.refl same _) (List.forall₂_same.mpr fun _ _ => .refl same _), rfl⟩

end Reflexivity

section Equality

theorem eq_of_rel {r : α → α → Prop} (equal : ∀ {a b}, r a b → a = b) {x y : Option α}
    (related : Option.Rel r x y) : x = y := by
  cases related with
  | none => rfl
  | some values => rw [equal values]

theorem GlyphProcedure.Variant.eq {p q : GlyphProcedure σ} (variant : p.Variant Eq q) : p = q := by
  obtain ⟨content, scope⟩ := p
  obtain ⟨rfl, rfl⟩ := variant
  rfl

theorem Font.Variant.eq {f g : Font K σ} (variant : f.Variant Eq g) : f = g := by
  obtain ⟨procedures⟩ := variant
  have same : f.procedure? = _ := funext fun code =>
    eq_of_rel GlyphProcedure.Variant.eq (procedures code)
  rw [← same]

theorem GraphicsState.Variant.eq {s t : GraphicsState K σ} (variant : s.Variant Eq t) : s = t := by
  obtain ⟨fonts⟩ := variant
  rw [← eq_of_rel Font.Variant.eq fonts]
  rfl

/-- If glyph procedures stay as they are, so do contexts. -/
theorem Context.Variant.eq {c d : Context K σ} (variant : c.Variant Eq d) : c = d := by
  obtain @⟨states, current, saved⟩ := variant
  have savedStates : c.states.saved = states.saved := by
    simpa using saved.imp fun _ _ => GraphicsState.Variant.eq
  have same : c.states = states := by
    change (⟨c.states.current, c.states.saved⟩ : StateStack K σ) = ⟨states.current, states.saved⟩
    rw [current.eq, savedStates]
  rw [← same]

theorem Event.Variant.eq {e e' : Event K σ} (variant : e.Variant Eq e')
    (callback : e.isWarning = false) : e = e' := by
  cases variant with
  | same => rfl
  | warning => cases callback
  | glyph glyphs states =>
      obtain ⟨fonts⟩ := glyphs
      rw [states.eq, ← fonts.eq]
  | stroke _ states | fill _ _ states | fillStroke _ _ states | shading _ _ states
  | image _ states => rw [states.eq]

/-- There are no warnings among callbacks, so they are the same. -/
theorem Entry.callbacks_eq_of_variant {log log' : List (Entry K σ)}
    (variant : List.Forall₂ (Event.Variant Eq) (callbacks log) (callbacks log')) :
    callbacks log = callbacks log' := by
  have silent : ∀ e ∈ callbacks log, e.isWarning = false := fun e mem => by
    obtain ⟨-, told⟩ := List.mem_filter.mp mem
    simpa using told
  have both := (List.forall₂_and_left _ _).mpr ⟨silent, variant⟩
  simpa using both.imp fun _ _ e => e.2.eq e.1

end Equality

/-! ### Changes of contexts -/

section Contexts

variable {γ : Bytes → Bytes → Prop} {s t : GraphicsState K σ} {c d : Context K σ}

/-- The change keeps the selected font and does not look at it. -/
def FontBlind (f : GraphicsState K σ → GraphicsState K σ) : Prop :=
  ∀ s font, f (s.withFont font) = (f s).withFont font ∧ (f s).text.font = s.text.font

theorem GraphicsState.Variant.map {f : GraphicsState K σ → GraphicsState K σ} (blind : FontBlind f)
    (variant : s.Variant γ t) : (f s).Variant γ (f t) := by
  obtain @⟨font, fonts⟩ := variant
  obtain ⟨same, kept⟩ := blind s font
  rw [same]
  exact .mk _ (kept ▸ fonts)

/-- A state in which no font is selected is a variant of itself. -/
theorem GraphicsState.Variant.of_none (fontless : s.text.font = none) : s.Variant γ s := by
  have same : s.withFont none = s := by
    rw [withFont, ← fontless]
  have fonts : Option.Rel (Font.Variant γ) s.text.font none := by
    rw [fontless]
    exact .none
  exact same ▸ Variant.mk s fonts

namespace Context.Variant

theorem state (variant : c.Variant γ d) : c.state.Variant γ d.state := by
  obtain ⟨current, saved⟩ := variant
  exact current

theorem updateState {f g : GraphicsState K σ → GraphicsState K σ} (variant : c.Variant γ d)
    (states : (f c.state).Variant γ (g d.state)) :
    (c.updateState f).Variant γ (d.updateState g) := by
  obtain ⟨current, saved⟩ := variant
  exact .mk _ states saved

theorem save (variant : c.Variant γ d) :
    ({ c with states := c.states.save } : Context K σ).Variant γ
      { d with states := d.states.save } := by
  obtain ⟨current, saved⟩ := variant
  exact .mk _ current (.cons current saved)

end Context.Variant

end Contexts

namespace Action

variable {ρ γ : Bytes → Bytes → Prop}

/-- Two actions do the same up to variants, and come to values related by `V` or to the same error.
-/
inductive Matches (ρ γ : Bytes → Bytes → Prop) (V : α → β → Prop) :
    Action K σ α → Action K σ β → Prop
  | finish {result result'} (results : SameResult V result result') :
    Matches ρ γ V (.finish result) (.finish result')
  | look {next next'} (later : ∀ env env' c d, env.Variant ρ γ env' → c.Variant γ d →
      Matches ρ γ V (next env c) (next' env' d)) : Matches ρ γ V (.look next) (.look next')
  | change {f g next next'} (variant : ∀ c d : Context K σ, c.Variant γ d → (f c).Variant γ (g d))
    (later : Matches ρ γ V next next') : Matches ρ γ V (.change f next) (.change g next')
  | tell {e e' : Event K σ} {next next'} (events : e.Variant γ e')
    (later : Matches ρ γ V next next') : Matches ρ γ V (.tell e next) (.tell e' next')
  | nest {content content' setup setup' next next'} (scope) (contents : ρ content content')
    (variant : ∀ s t : GraphicsState K σ, s.Variant γ t → (setup s).Variant γ (setup' t))
    (later : ∀ answer answer', SameResult (fun _ _ => True) answer answer' →
      Matches ρ γ V (next answer) (next' answer')) :
    Matches ρ γ V (.nest content scope setup next) (.nest content' scope setup' next')

namespace Matches

variable {V : α → α → Prop} {W : β → β → Prop} {x y : Action K σ β} {f g : β → Action K σ α}

theorem pure {a b : α} (value : V a b) :
    Matches ρ γ V (Pure.pure a : Action K σ α) (Pure.pure b) :=
  .finish (.ok value)

theorem throw {e e' : OperatorError} (errors : e.Variant e') :
    Matches ρ γ V (MonadExcept.throw e : Action K σ α) (MonadExcept.throw e') :=
  .finish (.error errors)

/-- The same error on both sides. -/
theorem fail (e : OperatorError) :
    Matches ρ γ V (MonadExcept.throw e : Action K σ α) (MonadExcept.throw e) :=
  .throw (.same e)

/-- Two parts of actions in turn. -/
theorem bind (first : Matches ρ γ W x y) (second : ∀ a b, W a b → Matches ρ γ V (f a) (g b)) :
    Matches ρ γ V (x >>= f) (y >>= g) := by
  induction first with
  | finish results =>
      cases results with
      | ok value => exact second _ _ value
      | error errors => exact .finish (.error errors)
  | look _ ih => exact .look ih
  | change variant _ ih => exact .change variant ih
  | tell events _ ih => exact .tell events ih
  | nest scope contents variant _ ih => exact .nest scope contents variant ih

/-- What follows on an action that has no value to speak of. -/
theorem next {x y : Action K σ Unit} {u v : Action K σ α}
    (first : Matches ρ γ (fun _ _ => True) x y) (second : Matches ρ γ V u v) :
    Matches ρ γ V (x >>= fun _ => u) (y >>= fun _ => v) :=
  first.bind fun _ _ _ => second

theorem attempt (related : Matches ρ γ W x y) : Matches ρ γ (SameResult W) x.attempt y.attempt := by
  induction related with
  | finish results => exact .finish (.ok results)
  | look _ ih => exact .look ih
  | change variant _ ih => exact .change variant ih
  | tell events _ ih => exact .tell events ih
  | nest scope contents variant _ ih => exact .nest scope contents variant ih

theorem handle {first second : OperatorError → Action K σ β} (related : Matches ρ γ W x y)
    (handlers : ∀ e e', e.Variant e' → Matches ρ γ W (first e) (second e')) :
    Matches ρ γ W (x.handle first) (y.handle second) := by
  refine related.attempt.bind fun a b results => ?_
  cases results with
  | ok value => exact .pure value
  | error errors => exact handlers _ _ errors

theorem andFinally {u v : Action K σ Unit} (related : Matches ρ γ W x y)
    (last : Matches ρ γ (fun _ _ => True) u v) :
    Matches ρ γ W (x.andFinally u) (y.andFinally v) :=
  related.attempt.bind fun _ _ results => last.next (.finish results)

theorem nested {content content' : Bytes} {setup setup' : GraphicsState K σ → GraphicsState K σ}
    (contents : ρ content content') (scope : σ)
    (variant : ∀ s t, s.Variant γ t → (setup s).Variant γ (setup' t)) :
    Matches ρ γ (fun _ _ => True) (Action.nested content scope setup)
      (Action.nested content' scope setup') :=
  .nest scope contents variant fun _ _ results => .finish results

theorem read {result : Except OperatorError β}
    (value : ∀ b, result = .ok b → Matches ρ γ V (f b) (g b)) :
    Matches ρ γ V (Action.ofExcept result >>= f) (Action.ofExcept result >>= g) := by
  cases result with
  | error e => exact .fail e
  | ok b => exact value b rfl

theorem environment {f g : Environment K σ → Action K σ α}
    (later : ∀ env env', env.Variant ρ γ env' → Matches ρ γ V (f env) (g env')) :
    Matches ρ γ V (Action.environment >>= f) (Action.environment >>= g) :=
  .look fun env env' _ _ surroundings _ => later env env' surroundings

theorem context {f g : Context K σ → Action K σ α}
    (later : ∀ c d, c.Variant γ d → Matches ρ γ V (f c) (g d)) :
    Matches ρ γ V (Action.context >>= f) (Action.context >>= g) :=
  .look fun _ _ c d _ variant => later c d variant

theorem state {f g : GraphicsState K σ → Action K σ α}
    (later : ∀ s t, s.Variant γ t → Matches ρ γ V (f s) (g t)) :
    Matches ρ γ V (Action.state >>= f) (Action.state >>= g) :=
  .look fun _ _ _ _ _ variant => later _ _ variant.state

theorem modify {f g : Context K σ → Context K σ}
    (variant : ∀ c d, c.Variant γ d → (f c).Variant γ (g d)) :
    Matches ρ γ (fun _ _ => True) (Action.modify f) (Action.modify g) :=
  .change variant (.pure trivial)

/-- A change that keeps the graphics states and does not look at them. -/
theorem modifyElsewhere {f : Context K σ → Context K σ}
    (blind : ∀ c states, f { c with states } = { f c with states } ∧ (f c).states = c.states) :
    Matches ρ γ (fun _ _ => True) (Action.modify f) (Action.modify f) := by
  refine modify fun c d variant => ?_
  obtain @⟨states, current, saved⟩ := variant
  obtain ⟨same, kept⟩ := blind c states
  rw [same]
  exact .mk _ (kept ▸ current) (kept ▸ saved)

theorem updateState {f g : GraphicsState K σ → GraphicsState K σ}
    (variant : ∀ s t, s.Variant γ t → (f s).Variant γ (g t)) :
    Matches ρ γ (fun _ _ => True) (Action.updateState f) (Action.updateState g) :=
  modify fun _ _ contexts => contexts.updateState (variant _ _ contexts.state)

theorem update {f : GraphicsState K σ → GraphicsState K σ} (blind : FontBlind f) :
    Matches ρ γ (fun _ _ => True) (Action.updateState f) (Action.updateState f) :=
  updateState fun _ _ states => states.map blind

theorem emit {e e' : Event K σ} (events : e.Variant γ e') :
    Matches ρ γ (fun _ _ => True) (Action.emit e) (Action.emit e') :=
  .tell events (.pure trivial)

theorem warn (w w' : Warning) :
    Matches ρ γ (fun _ _ => True) (Action.warn w : Action K σ Unit) (Action.warn w') := by
  refine .environment fun env env' surroundings => ?_
  rw [surroundings.options]
  split
  · exact .emit (.warning w w')
  · exact .pure trivial

theorem warnAt (keyword : String) (code : WarningCode) (description : String) :
    Matches ρ γ (fun _ _ => True) (Action.warnAt keyword code description : Action K σ Unit)
      (Action.warnAt keyword code description) :=
  .environment fun _ _ _ => .warn _ _

theorem warnError (keyword : String) (e e' : OperatorError) :
    Matches ρ γ (fun _ _ => True) (Action.warnError keyword e : Action K σ Unit)
      (Action.warnError keyword e') :=
  .environment fun _ _ _ => .warn _ _

theorem checkDepth :
    Matches ρ γ (fun _ _ => True) (Action.checkDepth : Action K σ Unit) Action.checkDepth := by
  refine .environment fun env env' surroundings => ?_
  rw [surroundings.options, surroundings.depth]
  split
  · exact .fail _
  · exact .pure trivial

end Matches

end Action

/-! ### Runs -/

/-- Results that are related, states that are variants, and variants of the same callbacks. -/
structure Outcome.Variant (γ : Bytes → Bytes → Prop) {ε ε' : Type}
    (R : Except ε α → Except ε' β → Prop) (o : Outcome ε K σ α) (o' : Outcome ε' K σ β) : Prop where
  result : R o.result o'.result
  state : o.state.Variant γ o'.state
  callbacks : List.Forall₂ (Event.Variant γ) (Entry.callbacks o.log) (Entry.callbacks o'.log)

namespace Outcome.Variant

variable {ρ γ : Bytes → Bytes → Prop} {ε ε' : Type} {R : Except ε α → Except ε' β → Prop}
  {o : Outcome ε K σ α} {o' : Outcome ε' K σ β} {log log' : List (Entry K σ)}

theorem after (variant : o.Variant γ R o')
    (told : List.Forall₂ (Event.Variant γ) (Entry.callbacks log) (Entry.callbacks log')) :
    (o.after log).Variant γ R (o'.after log') where
  result := variant.result
  state := variant.state
  callbacks := by
    simp only [Outcome.log_after, Entry.callbacks_append]
    exact List.rel_append told variant.callbacks

end Outcome.Variant

/-- Two ways to run nested streams go alike on content that `ρ` relates. -/
def NestedRun.Variant (ρ γ : Bytes → Bytes → Prop) (nested nested' : NestedRun K σ) : Prop :=
  ∀ content content' scope setup setup' s t, ρ content content' →
    (∀ s t : GraphicsState K σ, s.Variant γ t → (setup s).Variant γ (setup' t)) → s.Variant γ t →
    (nested content scope setup s).Variant γ (SameResult fun _ _ => True)
      (nested' content' scope setup' t)

theorem Entry.forall₂_callbacks_event {γ : Bytes → Bytes → Prop} {e e' : Event K σ}
    (events : e.Variant γ e') :
    List.Forall₂ (Event.Variant γ) (callbacks [.event e]) (callbacks [.event e']) := by
  cases events with
  | warning => exact .nil
  | same =>
      cases warning : e.isWarning with
      | true => simp [callbacks, Event.callbacks, warning]
      | false => simpa [callbacks, Event.callbacks, warning] using .same e
  | stroke path states => exact .cons (.stroke path states) .nil
  | fill path rule states => exact .cons (.fill path rule states) .nil
  | fillStroke path rule states => exact .cons (.fillStroke path rule states) .nil
  | shading name shading states => exact .cons (.shading name shading states) .nil
  | image image states => exact .cons (.image image states) .nil
  | glyph glyphs states => exact .cons (.glyph glyphs states) .nil

/-- Actions that do the same have outcomes that are variants. -/
theorem Action.Matches.run {ρ γ : Bytes → Bytes → Prop} {V : α → β → Prop}
    {x : Action K σ α} {y : Action K σ β} {nested nested' : NestedRun K σ}
    {environment environment' : RunState K σ → Environment K σ} (nests : nested.Variant ρ γ nested')
    (surroundings : ∀ s t, s.Variant γ t → (environment s).Variant ρ γ (environment' t))
    (related : Matches ρ γ V x y) {s t : RunState K σ} (states : s.Variant γ t) :
    (x.run environment nested s).Variant γ (SameResult V) (y.run environment' nested' t) := by
  induction related generalizing s t with
  | finish results => exact ⟨results, states, .nil⟩
  | look _ ih => exact ih _ _ _ _ (surroundings s t states) states.context states
  | change variant _ ih => exact ih ⟨variant _ _ states.context, states.depth⟩
  | tell events _ ih => exact (ih states).after (Entry.forall₂_callbacks_event events)
  | nest scope contents variant _ ih =>
      have within := nests _ _ scope _ _ s t contents variant states
      exact (ih _ _ within.result within.state).after within.callbacks

end PdfContent
