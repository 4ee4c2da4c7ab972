import PdfContent.Proofs.Running
import PdfContent.Proofs.Variants

/-!
# Operators on variants

Each operator of the table for painting matches itself: whatever variants of states and resources it
finds, it does the same. What it reads of a font is the same in both variants, up to the content of
the glyph procedure that it has run; and what it finds in the resources differs only in the content
that it has run.
-/

namespace PdfContent

variable {K σ : Type} {ρ γ : Bytes → Bytes → Prop}

/-- A font's variants split strings into the same codes. -/
theorem Font.Variant.decode {f g : Font K σ} (variant : f.Variant γ g) (s : Bytes) :
    f.decode s = g.decode s := by
  obtain @⟨procedure?, procedures⟩ := variant
  fun_induction Font.decode f s with
  | case1 => rw [Font.decode]
  | case2 b rest n ih =>
      rw [Font.decode, ih]
      rfl

theorem GraphicsState.Variant.applyParameters {s t : GraphicsState K σ} {p q : StateParameters K σ}
    (states : s.Variant γ t) (parameters : p.Variant γ q) :
    (s.applyParameters p).Variant γ (t.applyParameters q) := by
  obtain @⟨font, fonts⟩ := states
  obtain @⟨given, related⟩ := parameters
  generalize first : p.font = set at related
  cases related with
  | none =>
      have same : (s.withFont font).applyParameters { p with font := none } =
          (s.applyParameters p).withFont font := by
        simp only [GraphicsState.applyParameters, first]
        rfl
      rw [same]
      refine .mk _ ?_
      simpa only [GraphicsState.applyParameters, first] using fonts
  | @some f g pair =>
      have same : (s.withFont font).applyParameters { p with font := some g } =
          (s.applyParameters p).withFont g.1 := by
        simp only [GraphicsState.applyParameters, first, pair.2]
        rfl
      rw [same]
      refine .mk _ ?_
      simpa only [GraphicsState.applyParameters, first] using .some pair.1

namespace Operators

open PdfContent.Action (Matches)

/-- An action that matches itself. -/
abbrev SelfMatching (ρ γ : Bytes → Bytes → Prop) (x : Action K σ Unit) : Prop :=
  Matches ρ γ (fun _ _ => True) x x

/-! ### Text -/

theorem matches_textObject (keyword : String) :
    Matches ρ γ Eq (textObject (K := K) (σ := σ) keyword) (textObject keyword) := by
  refine .context fun c d variant => ?_
  obtain ⟨current, saved⟩ := variant
  dsimp only
  split
  · exact .pure rfl
  · exact .fail _

theorem matches_setText (text : Option (TextObject K)) :
    SelfMatching ρ γ (Action.modify fun c : Context K σ => { c with text }) :=
  .modifyElsewhere fun _ _ => ⟨rfl, rfl⟩

theorem matches_updateTextObject (keyword : String) (f : TextObject K → TextObject K) :
    SelfMatching ρ γ (updateTextObject (K := K) (σ := σ) keyword f) := by
  refine (matches_textObject keyword).bind ?_
  rintro object _ rfl
  exact matches_setText _

theorem matches_endText (call : Call K) : SelfMatching ρ γ (endText (σ := σ) call) := by
  refine (matches_textObject call.keyword).bind ?_
  rintro _ _ rfl
  exact .next (matches_setText none) (.emit (.same _))

variable [Scalar K]

theorem matches_beginText (call : Call K) : SelfMatching ρ γ (beginText (σ := σ) call) :=
  .next (matches_setText _) (.emit (.same _))

theorem matches_setFont (call : Call K) : SelfMatching ρ γ (setFont (σ := σ) call) := by
  refine .read fun name _ => .read fun size _ => .environment fun env env' surroundings => ?_
  have select {f g : Font K σ} (fonts : f.Variant γ g) :
      Matches ρ γ (fun _ _ => True)
        (Action.updateText fun t =>
          { t with font := some f, fontName := some name, fontSize := size })
        (Action.updateText fun t =>
          { t with font := some g, fontName := some name, fontSize := size }) := by
    refine .updateState fun s t states => ?_
    obtain ⟨_⟩ := states
    exact .mk _ (.some fonts)
  rw [← surroundings.scope]
  rcases cases_of_rel (surroundings.resolver.font env.scope name) with
    ⟨first, second⟩ | ⟨f, g, first, second, fonts⟩ <;> simp only [first, second]
  · exact .next (select (.mk _ fun _ => .none)) (.fail _)
  · have fonts' := fonts
    obtain ⟨procedures⟩ := fonts
    simp only [Option.any_some, Option.getD_some, Option.isNone_some, Bool.false_eq_true, if_false]
    split
    · exact .next (.warnAt _ _ _) (.next (select fonts') (.pure trivial))
    · exact .next (select fonts') (.pure trivial)

theorem matches_moveText (call : Call K) : SelfMatching ρ γ (moveText (σ := σ) call) :=
  .read fun _ _ => .read fun _ _ => matches_updateTextObject _ _

theorem matches_setTextMatrix (call : Call K) : SelfMatching ρ γ (setTextMatrix (σ := σ) call) :=
  .read fun _ _ => matches_updateTextObject _ _

theorem matches_nextLine (call : Call K) : SelfMatching ρ γ (nextLine (σ := σ) call) := by
  refine .state fun s t states => ?_
  obtain ⟨_⟩ := states
  exact matches_updateTextObject _ _

omit [Scalar K] in
/-- An error that is not a fault is reported, a fault is passed on. -/
theorem matches_report (keyword : String) : ∀ e e' : OperatorError, e.Variant e' →
    Matches ρ γ (fun _ _ => True)
      (match e with
        | .fatal cause => throw (OperatorError.fatal cause)
        | e => Action.warnError keyword e : Action K σ Unit)
      (match e' with
        | .fatal cause => throw (OperatorError.fatal cause)
        | e => Action.warnError keyword e) := by
  intro e e' errors
  cases errors with
  | fatal cause cause' => exact .throw (.fatal cause cause')
  | same =>
      cases e with
      | fatal cause => exact .fail _
      | _ => exact .warnError _ _ _

omit [Scalar K] in
/-- A glyph is drawn by the content that its font gives for it, if that is wanted at all. -/
theorem matches_showGlyph (glyphs : ∀ a b, γ a b → ρ a b) (keyword : String)
    {g g' : GlyphEvent K σ} (variant : g.Variant γ g') :
    Matches ρ γ (fun _ _ => True) (showGlyph keyword g) (showGlyph keyword g') := by
  refine .state fun s t states => .next (.emit (.glyph variant states)) ?_
  refine .environment fun env env' surroundings => ?_
  obtain ⟨@⟨procedure?, procedures⟩⟩ := variant
  rw [surroundings.receiver, surroundings.options, surroundings.scope]
  split
  · rcases cases_of_rel (procedures g.code) with
      ⟨first, second⟩ | ⟨_, _, first, second, related⟩ <;> simp only [first, second]
    · exact .pure trivial
    · rw [related.scope]
      refine .handle (.nested (glyphs _ _ related.content) _ fun s t states => ?_) ?_
      · exact states.map (f := fun s => { s with ctm := g.glyphMatrix }) fun _ _ => ⟨rfl, rfl⟩
      · exact matches_report keyword
  · exact .pure trivial

section Glyphs

variable (glyphs : ∀ a b, γ a b → ρ a b)

include glyphs

theorem matches_showCodes (keyword : String) {f g : Font K σ} (fonts : f.Variant γ g)
    (codes : List (UInt32 × Bytes)) :
    Matches ρ γ (fun _ _ => True) (showCodes keyword f codes) (showCodes keyword g codes) := by
  induction codes with
  | nil => exact .pure trivial
  | cons code rest ih =>
      refine (matches_textObject keyword).bind ?_
      rintro object _ rfl
      refine .state fun s t states => ?_
      have event : (glyphEvent f s object code.1 code.2).Variant γ
          (glyphEvent g t object code.1 code.2) := by
        obtain ⟨_⟩ := states
        have fonts' := fonts
        obtain ⟨_⟩ := fonts
        exact .mk _ fonts'
      have advance : (glyphEvent f s object code.1 code.2).advance =
          (glyphEvent g t object code.1 code.2).advance := by
        obtain ⟨_⟩ := states
        obtain ⟨_⟩ := fonts
        rfl
      dsimp only
      rw [← advance]
      exact .next (matches_showGlyph glyphs keyword event)
        (.next (matches_updateTextObject _ _) ih)

theorem matches_showString (keyword : String) (bytes : Bytes) :
    SelfMatching ρ γ (showString (σ := σ) (K := K) keyword bytes) := by
  refine (matches_textObject keyword).bind ?_
  rintro _ _ rfl
  refine .state fun s t states => ?_
  obtain @⟨font, fonts⟩ := states
  dsimp only [GraphicsState.withFont]
  generalize s.text.font = first at fonts
  cases fonts with
  | none => exact .next (.warnAt _ _ _) (matches_showCodes glyphs _ (.mk _ fun _ => .none) _)
  | some fonts =>
      dsimp only
      rw [fonts.decode bytes]
      exact matches_showCodes glyphs keyword fonts _

theorem matches_showText (call : Call K) : SelfMatching ρ γ (showText (σ := σ) call) :=
  .read fun _ _ => matches_showString glyphs _ _

theorem matches_showElements (call : Call K) (index : Nat) (items : List (Operand K)) :
    SelfMatching ρ γ (showElements (σ := σ) call index items) := by
  have adjust (amount : K) : SelfMatching ρ γ (showElements.adjust (σ := σ) call amount) := by
    refine .state fun s t states => ?_
    obtain ⟨_⟩ := states
    exact matches_updateTextObject _ _
  induction items generalizing index with
  | nil => exact .pure trivial
  | cons v rest ih =>
      unfold showElements
      cases v with
      | literal bytes => exact .next (matches_showString glyphs _ _) (ih _)
      | hexadecimal bytes => exact .next (matches_showString glyphs _ _) (ih _)
      | integer i => exact .next (adjust _) (ih _)
      | real x => exact .next (adjust _) (ih _)
      | _ => exact .next (.fail _) (ih _)

theorem matches_showTextAdjusted (call : Call K) :
    SelfMatching ρ γ (showTextAdjusted (σ := σ) call) := by
  refine .read fun items _ => (matches_textObject call.keyword).bind ?_
  rintro _ _ rfl
  exact matches_showElements glyphs _ _ _

end Glyphs

/-! ### The graphics state and marked content -/

omit [Scalar K] in
theorem matches_save (call : Call K) : SelfMatching ρ γ (save (σ := σ) call) :=
  .modify fun _ _ contexts => contexts.save

omit [Scalar K] in
theorem matches_restoreState : SelfMatching ρ γ (restoreState (K := K) (σ := σ)) := by
  refine .context fun c d contexts => ?_
  obtain @⟨⟨current', saved'⟩, current, saved⟩ := contexts
  obtain ⟨⟨now, before⟩, text, compatibility, path, pendingClip⟩ := c
  cases saved with
  | nil => exact .fail _
  | cons latest earlier =>
      refine .modify fun c d contexts => ?_
      obtain ⟨_, _⟩ := contexts
      exact .mk _ latest earlier

omit [Scalar K] in
theorem matches_setParameters (call : Call K) :
    SelfMatching ρ γ (setParameters (σ := σ) call) := by
  refine .read fun name _ => .environment fun env env' surroundings => ?_
  rw [← surroundings.scope]
  rcases cases_of_rel (surroundings.resolver.stateParameters env.scope name) with
    ⟨first, second⟩ | ⟨_, _, first, second, parameters⟩ <;> rw [first, second]
  · exact .fail _
  · exact .updateState fun _ _ states => states.applyParameters parameters

omit [Scalar K] in
theorem matches_beginMarked (call : Call K) : SelfMatching ρ γ (beginMarked (σ := σ) call) :=
  .read fun _ _ => .emit (.same _)

omit [Scalar K] in
theorem matches_markPoint (call : Call K) : SelfMatching ρ γ (markPoint (σ := σ) call) :=
  .read fun _ _ => .emit (.same _)

omit [Scalar K] in
theorem matches_beginMarkedWithProperties (call : Call K) :
    SelfMatching ρ γ (beginMarkedWithProperties (σ := σ) call) := by
  refine .read fun tag _ => .environment fun env env' surroundings => ?_
  simp only [propertyList, surroundings.resolver.properties, surroundings.scope]
  split
  · exact .emit (.same _)
  · exact .next (.emit (.same _)) (.fail _)

omit [Scalar K] in
theorem matches_markPointWithProperties (call : Call K) :
    SelfMatching ρ γ (markPointWithProperties (σ := σ) call) := by
  refine .read fun tag _ => .environment fun env env' surroundings => ?_
  simp only [propertyList, surroundings.resolver.properties, surroundings.scope]
  exact .read fun _ _ => .emit (.same _)

omit [Scalar K] in
theorem matches_changeCompatibility (f : Nat → Nat) :
    SelfMatching ρ γ (Action.modify fun c : Context K σ =>
      { c with compatibility := f c.compatibility }) :=
  .modifyElsewhere fun _ _ => ⟨rfl, rfl⟩

/-! ### Forms and images -/

theorem matches_showForm (name : String) {form form' : Form K σ} (forms : form.Variant ρ form') :
    Matches ρ γ (fun _ _ => True) (showForm name form) (showForm name form') := by
  obtain ⟨contents⟩ := forms
  refine .next .checkDepth (.environment fun env env' surroundings => .state fun s t states => ?_)
  obtain ⟨_⟩ := states
  rw [surroundings.scope]
  refine .next (.emit (.same _)) (.andFinally (.nested contents _ ?_) (.emit (.same _)))
  exact fun s t states => states.map fun _ _ => ⟨rfl, rfl⟩

omit [Scalar K] in
theorem matches_drawImage (name : Option String) (image : Image)
    (inlineImage : Option (InlineImage K)) :
    SelfMatching ρ γ (drawImage (σ := σ) name image inlineImage) := by
  refine .state fun s t states => .emit ?_
  have states' := states
  obtain ⟨_⟩ := states
  exact .image _ states'

theorem matches_invoke (call : Call K) : SelfMatching ρ γ (invoke (σ := σ) call) := by
  refine .read fun name _ => .environment fun env env' surroundings => ?_
  rw [← surroundings.scope]
  rcases cases_of_rel (surroundings.resolver.xobject env.scope name) with
    ⟨first, second⟩ | ⟨_, _, first, second, objects⟩ <;> rw [first, second]
  · exact .fail _
  · cases objects with
    | form forms => exact matches_showForm name forms
    | image image => exact matches_drawImage _ _ _
    | postScript => exact .pure trivial

theorem matches_showInlineImage (call : Call K) :
    SelfMatching ρ γ (showInlineImage (σ := σ) call) := by
  rw [showInlineImage]
  split
  · exact .fail _
  · refine .environment fun env env' surroundings => ?_
    rw [surroundings.scope, surroundings.resolver.colorSpace]
    exact matches_drawImage _ _ _

/-! ### Paths -/

theorem matches_devicePoint (call : Call K) (index : Nat) :
    Matches ρ γ Eq (devicePoint (σ := σ) call index) (devicePoint call index) := by
  refine .read fun x _ => .read fun y _ => .state fun s t states => ?_
  obtain ⟨_⟩ := states
  exact .pure rfl

omit [Scalar K] in
theorem matches_construct (f : PathBuilder K → PathBuilder K) (e : Event K σ) :
    SelfMatching ρ γ (construct f e) :=
  .next (.modifyElsewhere fun _ _ => ⟨rfl, rfl⟩) (.emit (.same _))

omit [Scalar K] in
theorem matches_fromCurrentPoint (keyword : String) (stop : Point K)
    {f : Point K → Action K σ Unit} (continues : ∀ p, SelfMatching ρ γ (f p)) :
    SelfMatching ρ γ (fromCurrentPoint keyword stop f) := by
  refine .context fun c d contexts => ?_
  obtain ⟨current, saved⟩ := contexts
  dsimp only
  split
  · exact continues _
  · exact .next (.warnAt _ _ _) (matches_construct _ _)

/-- An operator that goes on from the points in device space that its operands give. -/
theorem Matches.devicePoint (call : Call K) (index : Nat) {f : Point K → Action K σ Unit}
    (later : ∀ p, SelfMatching ρ γ (f p)) :
    SelfMatching ρ γ (devicePoint call index >>= f) := by
  refine (matches_devicePoint call index).bind ?_
  rintro p _ rfl
  exact later p

theorem matches_moveTo (call : Call K) : SelfMatching ρ γ (moveTo (σ := σ) call) :=
  Matches.devicePoint call 0 fun _ => matches_construct _ _

theorem matches_lineTo (call : Call K) : SelfMatching ρ γ (lineTo (σ := σ) call) :=
  Matches.devicePoint call 0 fun _ =>
    matches_fromCurrentPoint _ _ fun _ => matches_construct _ _

theorem matches_curveTo (call : Call K) : SelfMatching ρ γ (curveTo (σ := σ) call) :=
  Matches.devicePoint call 0 fun _ => Matches.devicePoint call 2 fun _ =>
    Matches.devicePoint call 4 fun _ =>
      matches_fromCurrentPoint _ _ fun _ => matches_construct _ _

theorem matches_curveFromCurrent (call : Call K) :
    SelfMatching ρ γ (curveFromCurrent (σ := σ) call) :=
  Matches.devicePoint call 0 fun _ => Matches.devicePoint call 2 fun _ =>
    matches_fromCurrentPoint _ _ fun _ => matches_construct _ _

theorem matches_curveIntoEnd (call : Call K) : SelfMatching ρ γ (curveIntoEnd (σ := σ) call) :=
  Matches.devicePoint call 0 fun _ => Matches.devicePoint call 2 fun _ =>
    matches_fromCurrentPoint _ _ fun _ => matches_construct _ _

omit [Scalar K] in
theorem matches_closePath (call : Call K) : SelfMatching ρ γ (closePath (σ := σ) call) := by
  refine .context fun c d contexts => ?_
  obtain ⟨current, saved⟩ := contexts
  dsimp only
  split
  · exact matches_construct _ _
  · exact .pure trivial

theorem matches_appendRectangle (call : Call K) :
    SelfMatching ρ γ (appendRectangle (σ := σ) call) := by
  refine .read fun x _ => .read fun y _ => .read fun w _ => .read fun h _ =>
    .state fun s t states => ?_
  obtain ⟨_⟩ := states
  exact matches_construct _ _

omit [Scalar K] in
theorem matches_setPendingClip (rule : FillRule) (call : Call K) :
    SelfMatching ρ γ (setPendingClip (σ := σ) rule call) :=
  .modifyElsewhere fun _ _ => ⟨rfl, rfl⟩

/-! ### Painting -/

theorem matches_paintCell (name : String) {pattern pattern' : TilingPattern K σ}
    (patterns : pattern.Variant ρ pattern') (paint : Option (ColorSpace × Color K)) :
    Matches ρ γ (fun _ _ => True) (paintCell name pattern paint)
      (paintCell name pattern' paint) := by
  obtain ⟨contents⟩ := patterns
  refine .next .checkDepth (.environment fun env env' surroundings => ?_)
  rw [surroundings.scope, surroundings.baseMatrix]
  refine .next (.emit (.same _)) (.andFinally (.nested contents _ ?_) (.emit (.same _)))
  intro s t states
  obtain ⟨_⟩ := states
  refine .of_none ?_
  cases paint <;> rfl

/-- A cell that is run by itself. -/
theorem matches_paintCellAlone (name : String) {pattern pattern' : TilingPattern K σ}
    (patterns : pattern.Variant ρ pattern') (paint : Option (ColorSpace × Color K)) :
    Matches ρ γ (fun _ _ => True) (paintCellAlone name pattern paint)
      (paintCellAlone name pattern' paint) :=
  .handle (matches_paintCell name patterns paint) (matches_report "PaintType")

omit [Scalar K] in
/-- The patterns that fills are expanded with are variants. -/
theorem selectedCell?_variant {env env' : Environment K σ} (surroundings : env.Variant ρ γ env')
    {s t : GraphicsState K σ} (states : s.Variant γ t) :
    Option.Rel (fun cell cell' => cell.1 = cell'.1 ∧ cell.2.Variant ρ cell'.2)
      (selectedCell? env s) (selectedCell? env' t) := by
  obtain ⟨_⟩ := states
  rw [selectedCell?, selectedCell?, surroundings.options]
  split
  · dsimp only [GraphicsState.withFont]
    cases s.fillColor.patternName? with
    | none => exact .none
    | some name =>
        rw [← surroundings.scope]
        rcases cases_of_rel (surroundings.resolver.pattern env.scope name) with
          ⟨first, second⟩ | ⟨_, _, first, second, patterns⟩ <;> simp only [first, second]
        · exact .none
        · cases patterns with
          | tiling patterns => exact .some ⟨rfl, patterns⟩
          | shading => exact .none
  · exact .none

theorem matches_expandPattern (area : Path K) (rule : FillRule) :
    SelfMatching ρ γ (expandPattern (σ := σ) area rule) := by
  refine .environment fun env env' surroundings => .state fun s t states => ?_
  have paint (pattern : TilingPattern K σ) : cellPaint pattern s = cellPaint pattern t := by
    obtain ⟨_⟩ := states
    rfl
  rcases cases_of_rel (selectedCell?_variant surroundings states) with
    ⟨first, second⟩ | ⟨⟨name, pattern⟩, ⟨_, pattern'⟩, first, second, rfl, patterns⟩ <;>
    rw [first, second]
  · exact .pure trivial
  · have same : cellPaint pattern s = cellPaint pattern' t := by
      rw [paint]
      obtain ⟨_⟩ := patterns
      rfl
    refine .next (.modify fun _ _ contexts => contexts.save) (.next ?_ ?_)
    · exact .update fun _ _ => ⟨rfl, rfl⟩
    · rw [same]
      exact .andFinally (matches_paintCell name patterns _) matches_restoreState

theorem matches_expandFill (painting : Painting) (path : Path K) :
    SelfMatching ρ γ (expandFill (σ := σ) painting path) := by
  rw [expandFill]
  split
  · exact matches_expandPattern _ _
  · exact .pure trivial

omit [Scalar K] in
theorem matches_takePath : Matches ρ γ Eq (takePath (K := K) (σ := σ)) takePath := by
  refine .context fun c d contexts => ?_
  obtain ⟨current, saved⟩ := contexts
  exact .next (.modifyElsewhere fun _ _ => ⟨rfl, rfl⟩) (.pure rfl)

theorem matches_finishPath (painting : Painting) (call : Call K) :
    SelfMatching ρ γ (finishPath (σ := σ) painting call) := by
  refine matches_takePath.bind ?_
  rintro ⟨path, clip⟩ _ rfl
  dsimp only
  split
  · exact .pure trivial
  refine .state fun s t states => .next (.emit ?_) ?_
  · cases painting with
    | stroke => exact .stroke path states
    | fill rule => exact .fill path rule states
    | fillStroke rule => exact .fillStroke path rule states
    | nothing => exact .same _
  cases clip with
  | none => exact matches_expandFill painting path
  | some rule =>
      refine .next ?_ (matches_expandFill painting path)
      exact .next (.emit (.same _)) (.update fun _ _ => ⟨rfl, rfl⟩)

omit [Scalar K] in
theorem matches_paintShading (call : Call K) :
    SelfMatching ρ γ (paintShading (σ := σ) call) := by
  refine .read fun name _ => .environment fun env env' surroundings => ?_
  rw [surroundings.scope, surroundings.resolver.shading]
  exact .read fun _ _ => .state fun _ _ states => .emit (.shading _ _ states)

/-! ### Colours -/

theorem matches_selectSpace (target : PaintTarget) (call : Call K) :
    SelfMatching ρ γ (selectSpace (σ := σ) target call) := by
  refine .read fun name _ => .environment fun env env' surroundings => ?_
  rw [surroundings.scope, surroundings.resolver.colorSpace]
  refine .read fun space _ => .update fun _ _ => ?_
  cases target <;> exact ⟨rfl, rfl⟩

theorem matches_selectColor (target : PaintTarget) (patterns : Bool) (call : Call K) :
    SelfMatching ρ γ (selectColor (σ := σ) target patterns call) := by
  refine .state fun s t states => ?_
  have same : selectedSpace s target = selectedSpace t target := by
    obtain ⟨_⟩ := states
    cases target <;> rfl
  rw [same]
  refine .read fun color _ => .update fun _ _ => ?_
  cases target <;> exact ⟨rfl, rfl⟩

end Operators

end PdfContent
