import PdfContent.Proofs.Clipping

/-!
# Colours and the spaces they are selected in

The graphics state has a colour and a space for strokes, and one of each for fills. They are set by
different operators, and whether a colour is a pattern should be a matter of its space. It is, but for
one kind of operator: `SCN` and `scn` may name a pattern, and take the name in any space.

`colouring` watches the colours of all states that are saved, once for runs in which patterns are named
in any space and once for those in which they are not. In both, nested streams start with colours that
suit their spaces if the stream around them has such colours, and the cell of a pattern is begun only
where the fill names the pattern.
-/

namespace PdfContent

variable {K σ α β : Type}

/-! ### Spaces -/

/-- No space is built on a space of patterns. -/
def ColorSpace.Orderly : ColorSpace → Prop
  | .iccBased _ alternate => alternate.isPattern = false ∧ alternate.Orderly
  | .indexed base _ _ => base.isPattern = false ∧ base.Orderly
  | .separation _ alternate => alternate.isPattern = false ∧ alternate.Orderly
  | .deviceN _ alternate => alternate.isPattern = false ∧ alternate.Orderly
  | .pattern (some underlying) => underlying.Orderly
  | _ => True

/-- All colour spaces in the resources are orderly. -/
def Resolver.Orderly (resolver : Resolver K σ) : Prop :=
  ∀ scope name space, resolver.colorSpace scope name = some space → space.Orderly

theorem Resolver.orderly_ofCatalogs {catalog : σ → Catalog K σ}
    (listed : ∀ scope, ∀ entry ∈ (catalog scope).colorSpaces, entry.2.Orderly) :
    (Resolver.ofCatalogs catalog).Orderly := by
  intro scope name space found
  obtain ⟨entry, first, rfl⟩ := Option.map_eq_some_iff.mp found
  exact listed scope entry (List.mem_of_find?_eq_some first)

namespace ColorSpace

variable {space : ColorSpace}

theorem orderly_of_ofDeviceName? {name : String} (known : ofDeviceName? name = some space) :
    space.Orderly := by
  unfold ofDeviceName? at known
  split at known <;> cases known <;> trivial

variable [Scalar K]

/-- Components give a pattern just in a space of patterns. -/
theorem Orderly.isPattern_color (orderly : space.Orderly) (components : List K) :
    (space.color components).isPattern = space.isPattern := by
  fun_induction color space components with
  | case7 _ _ _ ih => exact (ih orderly.2).trans orderly.1
  | case8 _ _ _ ih => exact (ih orderly.2).trans orderly.1
  | case9 _ _ _ _ _ _ _ _ ih => exact (ih orderly.2).trans orderly.1
  | _ => rfl

theorem Orderly.isPattern_initialColor (orderly : space.Orderly) :
    (space.initialColor (K := K)).isPattern = space.isPattern := by
  unfold initialColor
  split
  · rfl
  · exact orderly.isPattern_color _
  · exact orderly.isPattern_color _
  · exact orderly.isPattern_color _
  · rfl
  · exact orderly.isPattern_color _

/-- A colour may be the one of a space: both are of patterns, or neither is. With `named`, the name of a
pattern may also have been given in another space. -/
structure Suits (named : Prop) (space : ColorSpace) (color : Color K) : Prop where
  orderly : space.Orderly
  pattern : color.isPattern = space.isPattern ∨ named ∧ color.patternName?.isSome

variable {named : Prop}

theorem Orderly.suits_color (orderly : space.Orderly) (components : List K) :
    space.Suits named (space.color components) :=
  ⟨orderly, .inl (orderly.isPattern_color components)⟩

theorem Orderly.suits_initialColor (orderly : space.Orderly) :
    space.Suits named (space.initialColor (K := K)) :=
  ⟨orderly, .inl orderly.isPattern_initialColor⟩

end ColorSpace

/-! ### States -/

namespace GraphicsState

/-- The colours and spaces of a state are those of another. -/
structure SameColours (s t : GraphicsState K σ) : Prop where
  strokeSpace : s.strokeSpace = t.strokeSpace
  fillSpace : s.fillSpace = t.fillSpace
  strokeColor : s.strokeColor = t.strokeColor
  fillColor : s.fillColor = t.fillColor

/-- Both colours of a state suit their spaces. -/
structure Suited (named : Prop) (s : GraphicsState K σ) : Prop where
  stroke : s.strokeSpace.Suits named s.strokeColor
  fill : s.fillSpace.Suits named s.fillColor

variable {named : Prop} {s t : GraphicsState K σ}

theorem Suited.congr (suited : s.Suited named) (same : t.SameColours s) : t.Suited named := by
  obtain ⟨strokeSpace, fillSpace, strokeColor, fillColor⟩ := same
  obtain ⟨stroke, fill⟩ := suited
  exact ⟨strokeSpace ▸ strokeColor ▸ stroke, fillSpace ▸ fillColor ▸ fill⟩

/-- The colours that a page starts with are gray. -/
theorem suited_initial [Scalar K] (ctm : Matrix K) : (initial ctm : GraphicsState K σ).Suited named :=
  ⟨⟨trivial, .inl rfl⟩, trivial, .inl rfl⟩

end GraphicsState

/-- The colours of the current state and of all saved ones suit their spaces. -/
def Context.Suited (named : Prop) (c : Context K σ) : Prop :=
  ∀ s ∈ c.states.all, s.Suited named

theorem RunState.suited_initial [Scalar K] {named : Prop} (ctm : Matrix K) :
    (initial ctm : RunState K σ).Suited named :=
  List.forall_mem_singleton.mpr (GraphicsState.suited_initial ctm)

namespace Context.Suited

variable {named : Prop} {c : Context K σ}

theorem current (suited : c.Suited named) : c.state.Suited named := suited _ List.mem_cons_self

theorem save (suited : c.Suited named) :
    ({ c with states := c.states.save } : Context K σ).Suited named :=
  List.forall_mem_cons.mpr ⟨suited.current, suited⟩

theorem restore {states : StateStack K σ} (suited : c.Suited named)
    (saved : c.states.restore? = some states) :
    ({ c with states } : Context K σ).Suited named := by
  rw [StateStack.restore?] at saved
  split at saved
  · cases saved
  next latest rest among =>
    cases saved
    intro s mem
    exact suited s (List.mem_cons_of_mem _ (among ▸ mem))

theorem update {f : GraphicsState K σ → GraphicsState K σ} (suited : c.Suited named)
    (keeps : c.state.Suited named → (f c.state).Suited named) : (c.updateState f).Suited named := by
  obtain ⟨here, earlier⟩ := List.forall_mem_cons.mp suited
  exact List.forall_mem_cons.mpr ⟨keeps here, earlier⟩

end Context.Suited

/-! ### Watching colours -/

/-- The pattern whose cell an event begins. -/
def Event.begunPattern? : Event K σ → Option String
  | .beginPattern name _ => some name
  | _ => none

/-- Watches whether colours keep suiting their spaces, and whether cells that are begun at a certain
depth or deeper are named by the fill. -/
def colouring (named : Prop) (depth : Nat) (env : Environment K σ) : Monitor K σ Unit where
  allows
    | _, .change before after => before.Suited named → after.Suited named
    | _, .tell c e => ∀ name, e.begunPattern? = some name → depth ≤ env.place.depth →
        c.state.fillColor.patternName? = some name
    | _, .nest c _ _ setup => c.state.Suited named → (setup c.state).Suited named
  next g _ := g
  answered g _ := g

/-- From a context an action keeps colours suiting their spaces, with `Q` for its value and the context
after it. -/
def Tints (named : Prop) (depth : Nat) (env : Environment K σ) (c : Context K σ) (x : Action K σ α)
    (Q : α → Context K σ → Prop) : Prop :=
  x.Obeys (colouring named depth env) env (fun a _ c => Q a c) (fun _ _ _ => True) () c

/-- From a context an action keeps colours suiting their spaces. -/
abbrev Colours (named : Prop) (depth : Nat) (env : Environment K σ) (c : Context K σ)
    (x : Action K σ α) : Prop :=
  Tints named depth env c x fun _ _ => True

namespace Tints

variable {named : Prop} {depth : Nat} {env : Environment K σ} {c : Context K σ}
  {Q : α → Context K σ → Prop} {R : β → Context K σ → Prop}

theorem pure {a : α} (value : Q a c) : Tints named depth env c (Pure.pure a : Action K σ α) Q := value

theorem throw (e : OperatorError) :
    Tints named depth env c (MonadExcept.throw e : Action K σ α) Q := trivial

theorem ofExcept (result : Except OperatorError α) :
    Colours named depth env c (Action.ofExcept result : Action K σ α) := by
  cases result <;> trivial

/-- Two parts of an action in turn. -/
theorem bind {x : Action K σ β} {f : β → Action K σ α} (first : Tints named depth env c x R)
    (second : ∀ b c', R b c' → Tints named depth env c' (f b) Q) :
    Tints named depth env c (x >>= f) Q := by
  rw [Tints, Action.obeys_bind]
  exact Action.Obeys.mono first (fun b _ c' holds => second b c' holds) fun _ _ _ h => h

/-- What follows on an action of which nothing need be known. -/
theorem next {x : Action K σ β} {f : β → Action K σ α} (first : Colours named depth env c x)
    (second : ∀ b c, Tints named depth env c (f b) Q) : Tints named depth env c (x >>= f) Q :=
  first.bind fun b c' _ => second b c'

/-- Reads something that may be missing. -/
theorem read {result : Except OperatorError β} {f : β → Action K σ α}
    (value : ∀ b, result = .ok b → Tints named depth env c (f b) Q) :
    Tints named depth env c (Action.ofExcept result >>= f) Q := by
  cases result with
  | error e => trivial
  | ok b => exact value b rfl

theorem environment {f : Environment K σ → Action K σ α}
    (next : Tints named depth env c (f env) Q) :
    Tints named depth env c (Action.environment >>= f) Q := next

theorem context {f : Context K σ → Action K σ α} (next : Tints named depth env c (f c) Q) :
    Tints named depth env c (Action.context >>= f) Q := next

theorem state {f : GraphicsState K σ → Action K σ α} (next : Tints named depth env c (f c.state) Q) :
    Tints named depth env c (Action.state >>= f) Q := next

theorem modify {f : Context K σ → Context K σ} {Q : Unit → Context K σ → Prop}
    (keeps : c.Suited named → (f c).Suited named) (after : Q () (f c)) :
    Tints named depth env c (Action.modify f) Q :=
  ⟨keeps, after⟩

/-- Something is changed besides the graphics states. -/
theorem beside {f : Context K σ → Context K σ} (states : (f c).states = c.states) :
    Colours named depth env c (Action.modify f) :=
  modify (fun suited s mem => suited s (states ▸ mem)) trivial

/-- Something is changed in the graphics state besides colours. -/
theorem updateState {f : GraphicsState K σ → GraphicsState K σ}
    (same : (f c.state).SameColours c.state) :
    Colours named depth env c (Action.updateState f) :=
  modify (fun suited => suited.update fun here => here.congr same) trivial

/-- Something is told other than that a cell begins. -/
theorem emit {e : Event K σ} (other : e.begunPattern? = none) :
    Colours named depth env c (Action.emit e) := by
  refine ⟨fun name begun => ?_, trivial⟩
  cases other.symm.trans begun

theorem warn (w : Warning) : Colours named depth env c (Action.warn w : Action K σ Unit) := by
  refine environment ?_
  split
  · exact emit rfl
  · exact pure trivial

theorem warnAt (keyword description : String) (code : WarningCode) :
    Colours named depth env c (Action.warnAt keyword code description : Action K σ Unit) :=
  environment (warn _)

theorem warnError (keyword : String) (e : OperatorError) :
    Colours named depth env c (Action.warnError keyword e : Action K σ Unit) :=
  environment (warn _)

theorem checkDepth {rest : Action K σ Unit} (next : Colours named depth env c rest) :
    Colours named depth env c (Action.checkDepth >>= fun _ => rest) := by
  simp only [Tints, Action.checkDepth, Action.obeys_bind, Action.obeys_environment]
  split
  · trivial
  · exact next

theorem nested {content : Bytes} {scope : σ} {setup : GraphicsState K σ → GraphicsState K σ}
    (keeps : c.state.Suited named → (setup c.state).Suited named) :
    Colours named depth env c (Action.nested content scope setup) :=
  ⟨keeps, fun answer => ofExcept answer⟩

theorem handle {x : Action K σ α} {f : OperatorError → Action K σ α}
    (first : Colours named depth env c x) (second : ∀ e c, Colours named depth env c (f e)) :
    Colours named depth env c (x.handle f) := by
  rw [Colours, Tints, Action.obeys_handle]
  exact Action.Obeys.mono first (fun _ _ _ h => h) fun e _ c _ => second e c

theorem andFinally {x : Action K σ α} {last : Action K σ Unit}
    (first : Colours named depth env c x) (second : ∀ c, Colours named depth env c last) :
    Colours named depth env c (x.andFinally last) := by
  rw [Colours, Tints, Action.obeys_andFinally]
  exact Action.Obeys.mono first (fun _ _ c _ => second c) fun _ _ c _ => second c

end Tints

namespace Operators

variable {named : Prop} {depth : Nat} {env : Environment K σ} {c : Context K σ}

/-! ### The graphics state and text -/

theorem colours_save (call : Call K) : Colours named depth env c (save (σ := σ) call) :=
  .modify Context.Suited.save trivial

theorem colours_restoreState : Colours named depth env c (restoreState (K := K) (σ := σ)) := by
  refine .context ?_
  split
  next saved => exact .modify (fun suited => suited.restore saved) trivial
  · exact .throw _

/-- A change that operands determine leaves colours alone. -/
def KeepsColours (change : Except OperatorError (GraphicsState K σ → GraphicsState K σ)) : Prop :=
  ∀ f, change = .ok f → ∀ s, (f s).SameColours s

namespace KeepsColours

theorem bind {x : Except OperatorError α}
    {f : α → Except OperatorError (GraphicsState K σ → GraphicsState K σ)}
    (each : ∀ a, KeepsColours (f a)) : KeepsColours (x >>= f) := by
  intro change given
  obtain ⟨a, _, made⟩ := exists_of_bind_ok given
  exact each a change made

theorem ok {f : GraphicsState K σ → GraphicsState K σ} (same : ∀ s, (f s).SameColours s) :
    KeepsColours (.ok f) := by
  rintro _ ⟨⟩
  exact same

theorem error (e : OperatorError) : KeepsColours (K := K) (σ := σ) (.error e) := nofun

/-- A parameter that is read and set. -/
theorem parameter {read : Except OperatorError α} (set : α → GraphicsState K σ → GraphicsState K σ)
    (same : ∀ a s, (set a s).SameColours s) : KeepsColours (do let a ← read; return set a) :=
  bind fun a => ok (same a)

end KeepsColours

variable [Scalar K]

theorem keepsColours_setLineCap (call : Call K) : KeepsColours (setLineCap (σ := σ) call) :=
  .bind fun value => by
    split
    · exact .ok fun _ => ⟨rfl, rfl, rfl, rfl⟩
    · exact .error _

theorem keepsColours_setLineJoin (call : Call K) : KeepsColours (setLineJoin (σ := σ) call) :=
  .bind fun value => by
    split
    · exact .ok fun _ => ⟨rfl, rfl, rfl, rfl⟩
    · exact .error _

theorem keepsColours_setDash (call : Call K) : KeepsColours (setDash (σ := σ) call) :=
  .bind fun _ => .bind fun _ => .bind fun _ => .ok fun _ => ⟨rfl, rfl, rfl, rfl⟩

theorem keepsColours_setRenderMode (call : Call K) : KeepsColours (setRenderMode (σ := σ) call) :=
  .bind fun value => by
    split
    · exact .ok fun _ => ⟨rfl, rfl, rfl, rfl⟩
    · exact .error _

omit [Scalar K] in
theorem colours_setParameters (call : Call K) :
    Colours named depth env c (setParameters (σ := σ) call) :=
  .read fun _ _ => .environment (.read fun _ _ => .updateState ⟨rfl, rfl, rfl, rfl⟩)

omit [Scalar K] in
theorem colours_textObject (keyword : String) :
    Colours named depth env c (textObject keyword : Action K σ (TextObject K)) := by
  refine .context ?_
  split
  · exact .pure trivial
  · exact .throw _

omit [Scalar K] in
theorem colours_updateTextObject (keyword : String) (f : TextObject K → TextObject K) :
    Colours named depth env c (updateTextObject (σ := σ) keyword f) :=
  .next (colours_textObject keyword) fun _ _ => .beside rfl

theorem colours_beginText (call : Call K) : Colours named depth env c (beginText (σ := σ) call) :=
  .next (.beside rfl) fun _ _ => .emit rfl

omit [Scalar K] in
theorem colours_endText (call : Call K) : Colours named depth env c (endText (σ := σ) call) :=
  .next (colours_textObject _) fun _ _ => .next (.beside rfl) fun _ _ => .emit rfl

theorem colours_setFont (call : Call K) : Colours named depth env c (setFont (σ := σ) call) := by
  refine .read fun name _ => .read fun size _ => .environment ?_
  have select (c : Context K σ) : Colours named depth env c (do
      Action.updateText fun t =>
        { t with
          font := some ((env.resolver.font env.scope name).getD Font.fallback)
          fontName := some name
          fontSize := size }
      if (env.resolver.font env.scope name).isNone then
        throw (OperatorError.missingResource .font name)) := by
    refine .next (.updateState ⟨rfl, rfl, rfl, rfl⟩) fun _ _ => ?_
    split
    · exact .throw _
    · exact .pure trivial
  dsimp only
  split
  · exact .next (.warnAt _ _ _) fun _ => select
  · exact select c

theorem colours_moveText (call : Call K) : Colours named depth env c (moveText (σ := σ) call) :=
  .read fun _ _ => .read fun _ _ => colours_updateTextObject _ _

theorem colours_setTextMatrix (call : Call K) :
    Colours named depth env c (setTextMatrix (σ := σ) call) :=
  .read fun _ _ => colours_updateTextObject _ _

theorem colours_nextLine (call : Call K) : Colours named depth env c (nextLine (σ := σ) call) :=
  .state (colours_updateTextObject _ _)

omit [Scalar K] in
/-- The procedure of a glyph is drawn in the colours of the text. -/
theorem colours_showGlyph (keyword : String) (glyph : GlyphEvent K σ) :
    Colours named depth env c (showGlyph keyword glyph) := by
  refine .state (.next (.emit rfl) fun _ _ => .environment ?_)
  split
  · split
    · exact .pure trivial
    · refine .handle (.nested fun suited => suited.congr ⟨rfl, rfl, rfl, rfl⟩) fun e _ => ?_
      cases e with
      | fatal cause => exact .throw _
      | _ => exact .warnError _ _
  · exact .pure trivial

theorem colours_showCodes (keyword : String) (font : Font K σ) (codes : List (UInt32 × Bytes)) :
    Colours named depth env c (showCodes keyword font codes) := by
  induction codes generalizing c with
  | nil => exact .pure trivial
  | cons code rest ih =>
      refine .next (colours_textObject keyword) fun _ _ => .state ?_
      refine .next (colours_showGlyph keyword _) fun _ _ => ?_
      exact .next (colours_updateTextObject keyword _) fun _ _ => ih

theorem colours_showString (keyword : String) (bytes : Bytes) :
    Colours named depth env c (showString (K := K) (σ := σ) keyword bytes) := by
  refine .next (colours_textObject keyword) fun _ _ => .state ?_
  split
  · exact colours_showCodes _ _ _
  · exact .next (.warnAt _ _ _) fun _ _ => colours_showCodes _ _ _

theorem colours_showText (call : Call K) : Colours named depth env c (showText (σ := σ) call) :=
  .read fun _ _ => colours_showString _ _

theorem colours_showElements (call : Call K) (index : Nat) (items : List (Operand K)) :
    Colours named depth env c (showElements (σ := σ) call index items) := by
  have adjust (c : Context K σ) (amount : K) :
      Colours named depth env c (showElements.adjust (σ := σ) call amount) :=
    .state (colours_updateTextObject _ _)
  induction items generalizing index c with
  | nil => exact .pure trivial
  | cons v rest ih =>
      unfold showElements
      cases v with
      | literal bytes => exact .next (colours_showString _ _) fun _ _ => ih _
      | hexadecimal bytes => exact .next (colours_showString _ _) fun _ _ => ih _
      | integer i => exact .next (adjust c _) fun _ _ => ih _
      | real x => exact .next (adjust c _) fun _ _ => ih _
      | _ => exact .next (.throw _) fun _ _ => ih _

theorem colours_showTextAdjusted (call : Call K) :
    Colours named depth env c (showTextAdjusted (σ := σ) call) :=
  .read fun _ _ => .next (colours_textObject _) fun _ _ => colours_showElements _ _ _

/-! ### Marked content, forms and images -/

omit [Scalar K] in
theorem colours_beginMarked (call : Call K) :
    Colours named depth env c (beginMarked (σ := σ) call) :=
  .read fun _ _ => .emit rfl

omit [Scalar K] in
theorem colours_beginMarkedWithProperties (call : Call K) :
    Colours named depth env c (beginMarkedWithProperties (σ := σ) call) := by
  refine .read fun _ _ => .environment ?_
  split
  · exact .emit rfl
  · exact .next (.emit rfl) fun _ _ => .throw _

omit [Scalar K] in
theorem colours_markPoint (call : Call K) : Colours named depth env c (markPoint (σ := σ) call) :=
  .read fun _ _ => .emit rfl

omit [Scalar K] in
theorem colours_markPointWithProperties (call : Call K) :
    Colours named depth env c (markPointWithProperties (σ := σ) call) :=
  .read fun _ _ => .environment (.read fun _ _ => .emit rfl)

/-- A form is drawn in the colours around it. -/
theorem colours_showForm (name : String) (form : Form K σ) :
    Colours named depth env c (showForm name form) := by
  refine .checkDepth (.environment (.state (.next (.emit rfl) fun _ c => ?_)))
  exact .andFinally (.nested fun suited => suited.congr ⟨rfl, rfl, rfl, rfl⟩) fun _ => .emit rfl

omit [Scalar K] in
theorem colours_drawImage (name : Option String) (image : Image)
    (inlineImage : Option (InlineImage K)) :
    Colours named depth env c (drawImage (σ := σ) name image inlineImage) :=
  .state (.emit rfl)

theorem colours_invoke (call : Call K) : Colours named depth env c (invoke (σ := σ) call) := by
  refine .read fun name _ => .environment (.read fun object _ => ?_)
  cases object with
  | form form => exact colours_showForm name form
  | image image => exact colours_drawImage _ _ _
  | postScript => exact .pure trivial

theorem colours_showInlineImage (call : Call K) :
    Colours named depth env c (showInlineImage (σ := σ) call) := by
  rw [showInlineImage]
  split
  · exact .throw _
  · exact .environment (colours_drawImage _ _ _)

/-! ### Paths and pattern cells -/

theorem colours_devicePoint (call : Call K) (index : Nat) :
    Colours named depth env c (devicePoint (σ := σ) call index) :=
  .read fun _ _ => .read fun _ _ => .state (.pure trivial)

omit [Scalar K] in
theorem colours_construct (f : PathBuilder K → PathBuilder K) {e : Event K σ}
    (other : e.begunPattern? = none) :
    Colours named depth env c (construct f e) :=
  .next (.beside rfl) fun _ _ => .emit other

omit [Scalar K] in
theorem colours_fromCurrentPoint (keyword : String) (stop : Point K)
    (f : Point K → Action K σ Unit) (continues : ∀ p c, Colours named depth env c (f p)) :
    Colours named depth env c (fromCurrentPoint keyword stop f) := by
  refine .context ?_
  split
  · exact continues _ c
  · exact .next (.warnAt _ _ _) fun _ _ => colours_construct _ rfl

theorem colours_moveTo (call : Call K) : Colours named depth env c (moveTo (σ := σ) call) :=
  .next (colours_devicePoint call 0) fun _ _ => colours_construct _ rfl

theorem colours_lineTo (call : Call K) : Colours named depth env c (lineTo (σ := σ) call) :=
  .next (colours_devicePoint call 0) fun _ _ =>
    colours_fromCurrentPoint _ _ _ fun _ _ => colours_construct _ rfl

theorem colours_curveTo (call : Call K) : Colours named depth env c (curveTo (σ := σ) call) :=
  .next (colours_devicePoint call 0) fun _ _ => .next (colours_devicePoint call 2) fun _ _ =>
    .next (colours_devicePoint call 4) fun _ _ =>
      colours_fromCurrentPoint _ _ _ fun _ _ => colours_construct _ rfl

theorem colours_curveFromCurrent (call : Call K) :
    Colours named depth env c (curveFromCurrent (σ := σ) call) :=
  .next (colours_devicePoint call 0) fun _ _ => .next (colours_devicePoint call 2) fun _ _ =>
    colours_fromCurrentPoint _ _ _ fun _ _ => colours_construct _ rfl

theorem colours_curveIntoEnd (call : Call K) :
    Colours named depth env c (curveIntoEnd (σ := σ) call) :=
  .next (colours_devicePoint call 0) fun _ _ => .next (colours_devicePoint call 2) fun _ _ =>
    colours_fromCurrentPoint _ _ _ fun _ _ => colours_construct _ rfl

omit [Scalar K] in
theorem colours_closePath (call : Call K) : Colours named depth env c (closePath (σ := σ) call) := by
  refine .context ?_
  split
  · exact colours_construct _ rfl
  · exact .pure trivial

theorem colours_appendRectangle (call : Call K) :
    Colours named depth env c (appendRectangle (σ := σ) call) :=
  .read fun _ _ => .read fun _ _ => .read fun _ _ => .read fun _ _ =>
    .state (colours_construct _ rfl)

/-- A cell is painted in the colours that a page starts with or in the ones that are given for it. -/
theorem suited_enterCell (pattern : TilingPattern K σ) (ctm : Matrix K)
    {paint : Option (ColorSpace × Color K)} (s : GraphicsState K σ)
    (suits : ∀ space color, paint = some (space, color) → space.Suits named color) :
    (enterCell pattern ctm paint s).Suited named := by
  cases paint with
  | none => exact (GraphicsState.suited_initial ctm).congr ⟨rfl, rfl, rfl, rfl⟩
  | some paint => exact ⟨suits _ _ rfl, suits _ _ rfl⟩

/-- An uncoloured cell is painted in a colour of the space below the one of the fill. -/
theorem suits_cellPaint {pattern : TilingPattern K σ} {s : GraphicsState K σ} {space : ColorSpace}
    {color : Color K} (suited : s.Suited named) (paint : cellPaint pattern s = some (space, color)) :
    space.Suits named color := by
  have orderly := suited.fill.orderly
  unfold cellPaint at paint
  split at paint
  next base within =>
    rw [within] at orderly
    have underlying : base.Orderly := orderly
    split at paint
    · cases paint
      exact underlying.suits_color _
    · cases paint
  · cases paint

theorem colours_paintCell (name : String) (pattern : TilingPattern K σ)
    (paint : Option (ColorSpace × Color K))
    (filled : depth ≤ env.place.depth → c.state.fillColor.patternName? = some name)
    (suits : c.state.Suited named → ∀ space color, paint = some (space, color) →
      space.Suits named color) :
    Colours named depth env c (paintCell name pattern paint) := by
  refine .checkDepth (.environment (.bind (R := fun _ c' => c' = c) ⟨?_, rfl⟩ ?_))
  · rintro _ ⟨⟩
    exact filled
  · rintro _ _ rfl
    refine .andFinally (.nested fun suited => ?_) fun _ => .emit rfl
    exact suited_enterCell _ _ _ (suits suited)

omit [Scalar K] in
theorem patternName?_of_selectedCell? {s : GraphicsState K σ} {cell : String × TilingPattern K σ}
    (selected : selectedCell? env s = some cell) : s.fillColor.patternName? = some cell.1 := by
  unfold selectedCell? at selected
  split at selected
  · split at selected
    · cases selected
    next name named =>
      split at selected
      · cases selected
        exact named
      · cases selected
  · cases selected

/-- The cell that a fill expands is named by its colour. -/
theorem colours_expandPattern (area : Path K) (rule : FillRule) :
    Colours named depth env c (expandPattern (σ := σ) area rule) := by
  refine .environment (.state ?_)
  cases selected : selectedCell? env c.state with
  | none => exact .pure trivial
  | some cell =>
      have filled := patternName?_of_selectedCell? selected
      refine .bind (R := fun _ c' => c'.state.SameColours c.state)
        (.modify Context.Suited.save ⟨rfl, rfl, rfl, rfl⟩) fun _ saved same => ?_
      refine .bind (R := fun _ c' => c'.state.SameColours c.state)
        (.modify (fun suited => suited.update fun here => here.congr ⟨rfl, rfl, rfl, rfl⟩)
          ⟨same.1, same.2, same.3, same.4⟩) fun _ clipped same => ?_
      refine .andFinally (colours_paintCell _ _ _ (fun _ => same.fillColor ▸ filled) ?_)
        fun _ => colours_restoreState
      intro suited space color paint
      exact suits_cellPaint (suited.congr ⟨same.1.symm, same.2.symm, same.3.symm, same.4.symm⟩) paint

theorem colours_finishPath (painting : Painting) (call : Call K) :
    Colours named depth env c (finishPath (σ := σ) painting call) := by
  have expand (c : Context K σ) (path : Path K) :
      Colours named depth env c (expandFill (σ := σ) painting path) := by
    rw [expandFill]
    split
    · exact colours_expandPattern _ _
    · exact .pure trivial
  refine .next (.context (.next (.beside rfl) fun _ _ => .pure trivial)) fun taken c => ?_
  obtain ⟨path, clip⟩ := taken
  dsimp only
  split
  · exact .pure trivial
  have other (s : GraphicsState K σ) : (painting.event path s).begunPattern? = none := by
    cases painting <;> rfl
  refine .state (.next (.emit (other _)) fun _ c => ?_)
  cases clip with
  | none => exact expand c path
  | some rule =>
      refine .next ?_ fun _ c => expand c path
      exact .next (.emit rfl) fun _ _ => .updateState ⟨rfl, rfl, rfl, rfl⟩

omit [Scalar K] in
theorem colours_paintShading (call : Call K) :
    Colours named depth env c (paintShading (σ := σ) call) :=
  .read fun _ _ => .environment (.read fun _ _ => .state (.emit rfl))

/-! ### Colours -/

/-- Operands that name a pattern, after components of its colour. -/
def NamesPattern (operands : List (Operand K)) : Prop :=
  ∃ numbers name, operands = numbers ++ [.name name] ∧ ∀ v ∈ numbers, v.number?.isSome

/-- The operator that may name a pattern for a target. -/
def namingKeyword : PaintTarget → String
  | .stroke => "SCN"
  | .fill => "scn"

/-- A call names a pattern although another space is selected. -/
def Misnames (call : Call K) (s : GraphicsState K σ) : Prop :=
  ∃ target, call.operator.keyword = namingKeyword target ∧ NamesPattern call.operands ∧
    (selectedSpace s target).isPattern = false

theorem colorComponents_isOk_iff (keyword : String) (index : Nat) (operands : List (Operand K)) :
    (∃ components, colorComponents keyword index operands = .ok components) ↔
      ∀ v ∈ operands, v.number?.isSome := by
  induction operands generalizing index with
  | nil => simp [colorComponents]
  | cons v rest ih =>
      rw [colorComponents, List.forall_mem_cons]
      cases v.number? with
      | none => simp
      | some x =>
          rw [← ih (index + 1)]
          cases colorComponents keyword (index + 1) rest <;> simp [bind, Except.bind, pure, Except.pure]

/-- What operands select: a colour of the space, or a pattern by its name. -/
theorem selectedColor_cases {call : Call K} {space : ColorSpace} {patterns : Bool} {color : Color K}
    (selected : selectedColor call space patterns = .ok color) :
    (∃ components, color = space.color components) ∨
      patterns = true ∧ NamesPattern call.operands ∧
        ∃ name components, color = .pattern (some name) components := by
  unfold selectedColor at selected
  generalize parts : (if patterns then splitPattern call.operands else (call.operands, none)) = p
    at selected
  obtain ⟨numbers, pattern⟩ := p
  obtain ⟨components, read, made⟩ := exists_of_bind_ok selected
  cases pattern with
  | none =>
      dsimp only at made
      split at made
      · cases made
      · cases made
        exact .inl ⟨components, rfl⟩
  | some name =>
      cases made
      refine .inr ?_
      split at parts
      next naming =>
        refine ⟨naming, ⟨numbers, name, ?_, ?_⟩, name, components, rfl⟩
        · unfold splitPattern at parts
          split at parts
          next last =>
            cases parts
            exact (List.dropLast_append_getLast? _ last).symm
          · cases parts
        · exact (colorComponents_isOk_iff _ _ _).mp ⟨components, read⟩
      · cases parts

/-- Operands that name a pattern select it in every space. -/
theorem selectedColor_of_namesPattern {call : Call K} (names : NamesPattern call.operands)
    (space : ColorSpace) :
    ∃ name components, selectedColor call space true = .ok (.pattern (some name) components) := by
  obtain ⟨numbers, name, operands, all⟩ := names
  obtain ⟨components, read⟩ := (colorComponents_isOk_iff call.keyword 0 numbers).mpr all
  refine ⟨name, components, ?_⟩
  simp [selectedColor, splitPattern, operands, read, bind, Except.bind, pure, Except.pure]

omit [Scalar K] in
theorem suited_setSpaceIn {s : GraphicsState K σ} {space : ColorSpace} {color : Color K}
    (suited : s.Suited named) (suits : space.Suits named color) (target : PaintTarget) :
    (setSpaceIn s space color target).Suited named := by
  cases target with
  | stroke => exact ⟨suits, suited.fill⟩
  | fill => exact ⟨suited.stroke, suits⟩

omit [Scalar K] in
theorem suited_setColorIn {s : GraphicsState K σ} {color : Color K} {target : PaintTarget}
    (suited : s.Suited named) (suits : (selectedSpace s target).Suits named color) :
    (setColorIn s color target).Suited named := by
  cases target with
  | stroke => exact ⟨suits, suited.fill⟩
  | fill => exact ⟨suited.stroke, suits⟩

omit [Scalar K] in
theorem orderly_selectedSpace {s : GraphicsState K σ} (suited : s.Suited named)
    (target : PaintTarget) : (selectedSpace s target).Orderly := by
  cases target with
  | stroke => exact suited.stroke.orderly
  | fill => exact suited.fill.orderly

theorem eq_some_of_require {kind : ResourceKind} {name : String} {found : Option α} {a : α}
    (there : require kind name found = .ok a) : found = some a := by
  cases found with
  | none => cases there
  | some b => exact congrArg some (Except.ok.inj there)

theorem colours_selectSpace (orderly : env.resolver.Orderly) (target : PaintTarget)
    (call : Call K) : Colours named depth env c (selectSpace (σ := σ) target call) := by
  refine .read fun name _ => .environment (.read fun space found => .modify (fun suited => ?_) trivial)
  have isOrderly : space.Orderly := by
    obtain known | ⟨-, listed⟩ := Option.or_eq_some_iff.mp (eq_some_of_require found)
    · exact ColorSpace.orderly_of_ofDeviceName? known
    · exact orderly _ _ _ listed
  exact suited.update fun here => suited_setSpaceIn here isOrderly.suits_initialColor target

/-- A colour suits the space in which it is selected, unless it names a pattern there. -/
theorem colours_selectColor (target : PaintTarget) (patterns : Bool) (call : Call K)
    (apart : patterns = true → NamesPattern call.operands →
      named ∨ (selectedSpace c.state target).isPattern = true) :
    Colours named depth env c (selectColor (σ := σ) target patterns call) := by
  refine .state (.read fun color selected => .modify (fun suited => ?_) trivial)
  refine suited.update fun here => suited_setColorIn here ?_
  have orderly := orderly_selectedSpace here target
  obtain ⟨components, rfl⟩ | ⟨naming, names, name, components, rfl⟩ := selectedColor_cases selected
  · exact orderly.suits_color _
  · obtain free | space := apart naming names
    · exact ⟨orderly, .inr ⟨free, rfl⟩⟩
    · exact ⟨orderly, .inl space.symm⟩

/-! ### The tables -/

/-- Where the resources are orderly, an action keeps colours suiting their spaces. -/
def Tinting (named : Prop) (depth : Nat) (env : Environment K σ) (c : Context K σ)
    (x : Action K σ Unit) : Prop :=
  env.resolver.Orderly → Colours named depth env c x

omit [Scalar K] in
theorem tinting_action {keyword : String} {minOperands : Nat} {run : Call K → Action K σ Unit}
    (colours : ∀ env c call, Colours named depth env c (run call)) :
    (entry keyword minOperands run).Follows (Tinting named depth) :=
  fun env c call _ => colours env c call

omit [Scalar K] in
theorem tinting_setter {keyword : String} {minOperands : Nat}
    {change : Call K → Except OperatorError (GraphicsState K σ → GraphicsState K σ)}
    (keeps : ∀ call, KeepsColours (change call)) :
    (setter keyword minOperands change).Follows (Tinting named depth) :=
  fun _ c call _ => .read fun f given => .updateState (keeps call f given c.state)

theorem tinting_textSetter (keyword : String) (set : K → TextState K σ → TextState K σ) :
    (textSetter keyword set).Follows (Tinting named depth) :=
  tinting_setter fun _ => .parameter (fun x s => { s with text := set x s.text })
    fun _ _ => ⟨rfl, rfl, rfl, rfl⟩

/-- A device space is selected together with a colour of it. -/
theorem tinting_deviceSetter (keyword : String) (target : PaintTarget) {space : ColorSpace}
    (orderly : space.Orderly) :
    (deviceSetter (K := K) (σ := σ) keyword target space).Follows (Tinting named depth) := by
  intro env c call _
  refine .read fun change given => .modify (fun suited => ?_) trivial
  obtain ⟨components, _, made⟩ := exists_of_bind_ok given
  cases made
  exact suited.update fun here => suited_setSpaceIn here (orderly.suits_color components) target

omit [Scalar K] in
theorem tinting_ignored (keyword : String) (minOperands : Nat) :
    (ignored (K := K) (σ := σ) keyword minOperands).Follows (Tinting named depth) :=
  fun _ _ _ _ => .pure trivial

omit [Scalar K] in
theorem tinting_closeThen (keyword next : String) :
    (closeThen (K := K) (σ := σ) keyword next).Follows (Tinting named depth) :=
  fun _ => .ok _

theorem tinting_stateEntries :
    ∀ e ∈ stateEntries (K := K) (σ := σ), e.Follows (Tinting named depth) := by
  have number {keyword : String} (set : K → GraphicsState K σ → GraphicsState K σ)
      (same : ∀ x s, (set x s).SameColours s) :
      (setter keyword 1 fun call => do let x ← call.number 0; return set x).Follows
        (Tinting named depth) :=
    tinting_setter fun _ => .parameter set same
  simp only [stateEntries, List.forall_mem_cons, List.not_mem_nil, false_implies, implies_true,
    and_true]
  exact ⟨tinting_action fun _ _ => colours_save, tinting_action fun _ _ _ => colours_restoreState,
    tinting_setter fun _ => .parameter (fun m s => s.concat m) fun _ _ => ⟨rfl, rfl, rfl, rfl⟩,
    tinting_action fun _ _ => colours_setParameters,
    number (fun x s => { s with lineWidth := x }) fun _ _ => ⟨rfl, rfl, rfl, rfl⟩,
    tinting_setter keepsColours_setLineCap, tinting_setter keepsColours_setLineJoin,
    number (fun x s => { s with miterLimit := x }) fun _ _ => ⟨rfl, rfl, rfl, rfl⟩,
    tinting_setter keepsColours_setDash,
    tinting_setter fun _ => .parameter (fun name s => { s with renderingIntent := .ofName name })
      fun _ _ => ⟨rfl, rfl, rfl, rfl⟩,
    number (fun x s => { s with flatness := x }) fun _ _ => ⟨rfl, rfl, rfl, rfl⟩⟩

theorem tinting_textStateEntries :
    ∀ e ∈ textStateEntries (K := K) (σ := σ), e.Follows (Tinting named depth) := by
  simp only [textStateEntries, List.forall_mem_cons, List.not_mem_nil, false_implies, implies_true,
    and_true, tinting_textSetter, true_and]
  refine ⟨tinting_action fun _ _ => colours_beginText, tinting_action fun _ _ => colours_endText,
    tinting_action fun _ _ => colours_setFont, tinting_setter keepsColours_setRenderMode,
    tinting_action fun _ _ => colours_moveText, ?_,
    tinting_action fun _ _ => colours_setTextMatrix, tinting_action fun _ _ => colours_nextLine⟩
  intro call
  exact (call.localResult_number 1).bind fun _ => .ok _

theorem tinting_textShowingEntries :
    ∀ e ∈ textShowingEntries (K := K) (σ := σ), e.Follows (Tinting named depth) := by
  simp only [textShowingEntries, List.forall_mem_cons, List.not_mem_nil, false_implies,
    implies_true, and_true, tinting_ignored]
  exact ⟨tinting_action fun _ _ => colours_showText,
    tinting_action fun _ _ => colours_showTextAdjusted, fun _ => .ok _, fun _ => .ok _⟩

omit [Scalar K] in
theorem tinting_markedEntries :
    ∀ e ∈ markedEntries (K := K) (σ := σ), e.Follows (Tinting named depth) := by
  simp only [markedEntries, List.forall_mem_cons, List.not_mem_nil, false_implies, implies_true,
    and_true]
  exact ⟨tinting_action fun _ _ => colours_beginMarked,
    tinting_action fun _ _ => colours_beginMarkedWithProperties,
    tinting_action fun _ _ _ => .emit rfl, tinting_action fun _ _ => colours_markPoint,
    tinting_action fun _ _ => colours_markPointWithProperties,
    tinting_action fun _ _ _ => .beside rfl, tinting_action fun _ _ _ => .beside rfl⟩

theorem tinting_pathConstructionEntries :
    ∀ e ∈ pathConstructionEntries (K := K) (σ := σ), e.Follows (Tinting named depth) := by
  simp only [pathConstructionEntries, List.forall_mem_cons, List.not_mem_nil, false_implies,
    implies_true, and_true]
  exact ⟨tinting_action fun _ _ => colours_moveTo, tinting_action fun _ _ => colours_lineTo,
    tinting_action fun _ _ => colours_curveTo,
    tinting_action fun _ _ => colours_curveFromCurrent,
    tinting_action fun _ _ => colours_curveIntoEnd, tinting_action fun _ _ => colours_closePath,
    tinting_action fun _ _ => colours_appendRectangle⟩

theorem tinting_pathPaintingEntries :
    ∀ e ∈ pathPaintingEntries (K := K) (σ := σ), e.Follows (Tinting named depth) := by
  have finishing (keyword : String) (painting : Painting) :
      (entry (K := K) (σ := σ) keyword 0 (finishPath painting)).Follows (Tinting named depth) :=
    tinting_action fun _ _ => colours_finishPath painting
  simp only [pathPaintingEntries, List.forall_mem_cons, List.not_mem_nil, false_implies,
    implies_true, and_true, finishing, tinting_closeThen, true_and]
  exact ⟨tinting_action fun _ _ _ => .beside rfl, tinting_action fun _ _ _ => .beside rfl,
    tinting_action fun _ _ => colours_paintShading⟩

/-- The colour operators, but for those that may name a pattern in a space of another kind. -/
theorem tinting_colorEntries : ∀ e ∈ colorEntries (K := K) (σ := σ),
    (∀ target, e.keyword = namingKeyword target → named) → e.Follows (Tinting named depth) := by
  have space (keyword : String) (target : PaintTarget) :
      (entry (K := K) (σ := σ) keyword 1 (selectSpace target)).Follows (Tinting named depth) :=
    fun _ _ call orderly => colours_selectSpace orderly target call
  have plain (keyword : String) (target : PaintTarget) :
      (entry (K := K) (σ := σ) keyword 0 (selectColor target false)).Follows (Tinting named depth) :=
    tinting_action fun _ _ call => colours_selectColor target false call fun naming =>
      absurd naming Bool.false_ne_true
  have naming (target : PaintTarget)
      (free : ∀ target', namingKeyword target = namingKeyword target' → named) :
      (entry (K := K) (σ := σ) (namingKeyword target) 0 (selectColor target true)).Follows
        (Tinting named depth) :=
    tinting_action fun _ _ call =>
      colours_selectColor target true call fun _ _ => .inl (free target rfl)
  simp only [colorEntries, List.forall_mem_cons, List.not_mem_nil, false_implies, implies_true,
    and_true]
  exact ⟨fun _ => space _ _, fun _ => space _ _, fun _ => plain _ _, naming .stroke,
    fun _ => plain _ _, naming .fill, fun _ => tinting_deviceSetter _ _ trivial,
    fun _ => tinting_deviceSetter _ _ trivial, fun _ => tinting_deviceSetter _ _ trivial,
    fun _ => tinting_deviceSetter _ _ trivial, fun _ => tinting_deviceSetter _ _ trivial,
    fun _ => tinting_deviceSetter _ _ trivial⟩

theorem tinting_sharedEntries :
    ∀ e ∈ sharedEntries (K := K) (σ := σ), e.Follows (Tinting named depth) := by
  simp only [sharedEntries, List.forall_mem_append]
  refine ⟨⟨⟨⟨tinting_stateEntries, tinting_textStateEntries⟩, tinting_textShowingEntries⟩,
    tinting_markedEntries⟩, ?_⟩
  simpa only [formEntries, List.forall_mem_singleton] using
    tinting_action fun _ _ => colours_invoke

theorem tinting_paintingEntries : ∀ e ∈ paintingEntries (K := K) (σ := σ),
    (∀ target, e.keyword = namingKeyword target → named) → e.Follows (Tinting named depth) := by
  simp only [paintingEntries, List.forall_mem_append]
  refine ⟨⟨⟨?_, fun e mem _ => tinting_pathConstructionEntries e mem⟩,
    fun e mem _ => tinting_pathPaintingEntries e mem⟩, tinting_colorEntries⟩
  simp only [inlineImageEntries, List.forall_mem_singleton]
  exact fun _ => tinting_action fun _ _ => colours_showInlineImage

theorem find?_naming (target : PaintTarget) :
    (graphicsTable (K := K) (σ := σ)).find? (namingKeyword target) =
      some (entry (namingKeyword target) 0 (selectColor target true)) := by
  cases target with
  | stroke =>
      exact find?_graphicsTable_of_mem (e := entry "SCN" 0 (selectColor .stroke true))
        (by simp [paintingEntries, colorEntries])
  | fill =>
      exact find?_graphicsTable_of_mem (e := entry "scn" 0 (selectColor .fill true))
        (by simp [paintingEntries, colorEntries])

/-- What an operator begins with that may name a pattern. -/
theorem expand_naming {call : Call K} {target : PaintTarget}
    (keyword : call.operator.keyword = namingKeyword target) :
    (graphicsTable (σ := σ)).expand call = (selectColor target true call, []) := by
  rw [OperatorTable.expand, keyword, find?_naming]
  exact if_neg (Nat.not_lt_zero _)

/-- Whatever an operator begins with keeps colours suiting their spaces, unless it names a pattern
although another space is selected. -/
theorem tinting_expand (env : Environment K σ) (orderly : env.resolver.Orderly) (c : Context K σ)
    (call : Call K) (apart : named ∨ ¬ Misnames call c.state) :
    Colours named depth env c (graphicsTable.expand call).1 := by
  by_cases naming : ∃ target, call.operator.keyword = namingKeyword target
  · obtain ⟨target, keyword⟩ := naming
    rw [expand_naming keyword]
    refine colours_selectColor target true call fun _ names => apart.imp_right fun proper => ?_
    cases space : (selectedSpace c.state target).isPattern with
    | true => rfl
    | false => exact absurd ⟨target, keyword, names, space⟩ proper
  · refine OperatorTable.follows_expand (P := Tinting named depth) (fun _ _ _ _ _ => .throw _)
      (fun _ _ _ => .pure trivial) (fun e found => ?_) env c orderly
    rw [find?_graphicsTable, Option.or_eq_some_iff] at found
    rcases found with painting | ⟨_, shared⟩
    · obtain ⟨mem, same⟩ := OperatorTable.mem_of_find?_ofList painting
      exact tinting_paintingEntries e mem fun target keyword => absurd ⟨target, same ▸ keyword⟩ naming
    · exact tinting_sharedEntries e (OperatorTable.mem_of_find?_ofList shared).1

end Operators

end PdfContent
