import PdfContent.Proofs.Manner

/-!
# Operators that only paint

Path construction, path painting, colours, shadings and inline images change nothing that text
depends on: they build the path, narrow the clip and select colours, as long as no pattern cell is
expanded. They show no glyphs, and their errors concern themselves alone.
-/

namespace PdfContent.Operators

open PdfContent.Action (Behaves)

variable {K σ : Type}

/-- The changes that painting operators make. -/
inductive PaintMove : Context K σ → Context K σ → Prop
  | path (c : Context K σ) (path : PathBuilder K) (pendingClip : Option FillRule) :
    PaintMove c { c with path, pendingClip }
  | clip (c : Context K σ) (area : Path K) (rule : FillRule) :
    PaintMove c (c.updateState fun s => s.intersectClip area rule)
  | colours (c : Context K σ) (strokeSpace fillSpace : ColorSpace)
    (strokeColor fillColor : Color K) :
    PaintMove c (c.updateState fun s => { s with strokeSpace, fillSpace, strokeColor, fillColor })

/-- How operators behave that only paint. -/
def paintManner : Manner K σ where
  moves := PaintMove
  tells e := e.glyph? = none
  opens _ _ _ _ := False
  fails := OperatorError.IsLocal
  tells_warning _ := rfl
  fails_local _ isLocal := isLocal

/-- An action only paints. -/
def Paints (env : Environment K σ) (c : Context K σ) (x : Action K σ Unit) : Prop :=
  x.Behaves paintManner env c fun _ _ => True

variable [Scalar K] {env : Environment K σ} {c : Context K σ}

omit [Scalar K] in
theorem paints_construct (f : PathBuilder K → PathBuilder K) {e : Event K σ}
    (silent : e.glyph? = none) : Paints env c (construct f e) := by
  rw [construct]
  refine Behaves.bind (R := fun _ _ => True) (.modify (.path c _ c.pendingClip) trivial)
    fun _ c' _ => ?_
  exact .emit silent trivial

theorem behaves_devicePoint (call : Call K) (index : Nat) :
    (devicePoint (σ := σ) call index).Behaves paintManner env c fun _ _ => True := by
  rw [devicePoint]
  refine .read (call.localResult_number index) fun x _ => ?_
  refine .read (call.localResult_number (index + 1)) fun y _ => ?_
  exact .state (.pure trivial)

omit [Scalar K] in
theorem paints_fromCurrentPoint (keyword : String) (stop : Point K) (f : Point K → Action K σ Unit)
    (continues : ∀ p c, Paints env c (f p)) : Paints env c (fromCurrentPoint keyword stop f) := by
  rw [fromCurrentPoint]
  refine .context ?_
  cases c.path.current with
  | some p => exact continues p c
  | none =>
      refine Behaves.bind (R := fun _ _ => True) (.warnAt trivial) fun _ _ _ => ?_
      exact paints_construct _ rfl

theorem paints_moveTo (call : Call K) : Paints env c (moveTo call) :=
  (behaves_devicePoint call 0).bind fun _ _ _ => paints_construct _ rfl

theorem paints_lineTo (call : Call K) : Paints env c (lineTo call) :=
  (behaves_devicePoint call 0).bind fun _ _ _ =>
    paints_fromCurrentPoint _ _ _ fun _ _ => paints_construct _ rfl

theorem paints_curveTo (call : Call K) : Paints env c (curveTo call) :=
  (behaves_devicePoint call 0).bind fun _ _ _ => (behaves_devicePoint call 2).bind fun _ _ _ =>
    (behaves_devicePoint call 4).bind fun _ _ _ =>
      paints_fromCurrentPoint _ _ _ fun _ _ => paints_construct _ rfl

theorem paints_curveFromCurrent (call : Call K) : Paints env c (curveFromCurrent call) :=
  (behaves_devicePoint call 0).bind fun _ _ _ => (behaves_devicePoint call 2).bind fun _ _ _ =>
    paints_fromCurrentPoint _ _ _ fun _ _ => paints_construct _ rfl

theorem paints_curveIntoEnd (call : Call K) : Paints env c (curveIntoEnd call) :=
  (behaves_devicePoint call 0).bind fun _ _ _ => (behaves_devicePoint call 2).bind fun _ _ _ =>
    paints_fromCurrentPoint _ _ _ fun _ _ => paints_construct _ rfl

omit [Scalar K] in
theorem paints_closePath (call : Call K) : Paints env c (closePath call) := by
  rw [closePath]
  refine .context ?_
  split
  · exact paints_construct _ rfl
  · exact .pure trivial

theorem paints_appendRectangle (call : Call K) : Paints env c (appendRectangle call) := by
  rw [appendRectangle]
  refine .read (call.localResult_number 0) fun x _ => ?_
  refine .read (call.localResult_number 1) fun y _ => ?_
  refine .read (call.localResult_number 2) fun w _ => ?_
  refine .read (call.localResult_number 3) fun h _ => ?_
  exact .state (paints_construct _ rfl)

omit [Scalar K] in
theorem paintMove_setSpaceIn (space : ColorSpace) (color : Color K) (target : PaintTarget) :
    PaintMove c (c.updateState fun s => setSpaceIn s space color target) := by
  cases target with
  | stroke => exact .colours c space c.state.fillSpace color c.state.fillColor
  | fill => exact .colours c c.state.strokeSpace space c.state.strokeColor color

omit [Scalar K] in
theorem paintMove_setColorIn (color : Color K) (target : PaintTarget) :
    PaintMove c (c.updateState fun s => setColorIn s color target) := by
  cases target with
  | stroke => exact .colours c c.state.strokeSpace c.state.fillSpace color c.state.fillColor
  | fill => exact .colours c c.state.strokeSpace c.state.fillSpace c.state.strokeColor color

theorem localResult_colorComponents (keyword : String) (index : Nat) (operands : List (Operand K)) :
    LocalResult (colorComponents keyword index operands) :=
  (argument_colorComponents keyword index operands).isLocal

theorem localResult_selectedColor (call : Call K) (space : ColorSpace) (patterns : Bool) :
    LocalResult (selectedColor call space patterns) :=
  (argument_selectedColor call space patterns).isLocal

theorem paints_selectSpace (target : PaintTarget) (call : Call K) :
    Paints env c (selectSpace target call) := by
  rw [selectSpace]
  refine .read (call.localResult_name 0) fun name _ => .environment ?_
  exact .read (localResult_require _ _ _) fun space _ =>
    .modify (paintMove_setSpaceIn _ _ _) trivial

theorem paints_selectColor (target : PaintTarget) (patterns : Bool) (call : Call K) :
    Paints env c (selectColor target patterns call) := by
  rw [selectColor]
  refine .state (.read (localResult_selectedColor _ _ _) fun color _ => ?_)
  exact .modify (paintMove_setColorIn _ _) trivial

theorem follows_deviceSetter (keyword : String) (target : PaintTarget) (space : ColorSpace) :
    (deviceSetter (K := K) (σ := σ) keyword target space).Follows Paints := by
  intro env c call
  refine .read (LocalResult.bind (localResult_colorComponents _ _ _) fun _ => .ok _)
    fun change given => ?_
  obtain ⟨components, _, made⟩ := exists_of_bind_ok given
  cases made
  exact .modify (paintMove_setSpaceIn _ _ _) trivial

omit [Scalar K] in
theorem paints_drawImage (name : Option String) (image : Image)
    (inlineImage : Option (InlineImage K)) : Paints env c (drawImage name image inlineImage) :=
  Behaves.state (.emit rfl trivial)

theorem paints_showInlineImage (call : Call K) : Paints env c (showInlineImage call) := by
  rw [showInlineImage]
  split
  · exact .throw trivial
  · exact .environment (paints_drawImage _ _ _)

omit [Scalar K] in
theorem paints_paintShading (call : Call K) : Paints env c (paintShading call) := by
  rw [paintShading]
  refine .read (call.localResult_name 0) fun name _ => .environment ?_
  exact .read (localResult_require _ _ _) fun shading _ => .state (.emit rfl trivial)

omit [Scalar K] in
theorem paints_setPendingClip (rule : FillRule) (call : Call K) :
    Paints env c (setPendingClip rule call) :=
  Behaves.modify (.path c c.path (some rule)) trivial

omit [Scalar K] in
theorem paints_applyClip (path : Path K) (rule : FillRule) :
    Paints env c (applyClip path rule) := by
  rw [applyClip]
  exact Behaves.bind (R := fun _ _ => True) (.emit rfl trivial) fun _ c' _ =>
    .modify (.clip c' path rule) trivial

theorem behaves_expandFill {manner : Manner K σ} (painting : Painting) (path : Path K)
    (c : Context K σ)
    (expands : ∀ c area rule, (expandPattern area rule).Behaves manner env c fun _ _ => True) :
    (expandFill (σ := σ) painting path).Behaves manner env c fun _ _ => True := by
  rw [expandFill]
  split
  · exact expands c path _
  · exact .pure trivial

/-- A path-painting operator only paints up to where it expands a pattern, so that it keeps to any
manner of painting in which patterns are expanded. -/
theorem behaves_finishPath {manner : Manner K σ} (painting : Painting) (call : Call K)
    (le : paintManner.Le manner)
    (expands : ∀ c area rule, (expandPattern area rule).Behaves manner env c fun _ _ => True) :
    (finishPath (σ := σ) painting call).Behaves manner env c fun _ _ => True := by
  rw [finishPath]
  refine Behaves.bind (R := fun _ _ => True) ?_ fun (path, clip) c' _ => ?_
  · refine .context (Behaves.bind (R := fun _ _ => True) ?_ fun _ _ _ => .pure trivial)
    exact .modify (le.moves _ _ (.path c .empty none)) trivial
  · dsimp only
    split
    · exact .pure trivial
    · refine .state ?_
      have silent : (painting.event path c'.state : Event K σ).glyph? = none := by
        cases painting <;> rfl
      refine Behaves.bind (R := fun _ _ => True) (.emit (le.tells _ silent) trivial)
        fun _ c' _ => ?_
      cases clip with
      | none => exact behaves_expandFill painting path c' expands
      | some rule =>
        refine Behaves.bind (.of_le le (paints_applyClip path rule)) fun _ c' _ => ?_
        exact behaves_expandFill painting path c' expands

/-- Where patterns are not expanded, nothing happens in place of an expansion. -/
theorem paints_expandPattern (area : Path K) (rule : FillRule)
    (off : env.options.expandPatterns = false) : Paints env c (expandPattern area rule) := by
  rw [expandPattern]
  refine .environment (.state ?_)
  simp only [selectedCell?, off]
  exact .pure trivial

theorem paints_finishPath (painting : Painting) (call : Call K)
    (off : env.options.expandPatterns = false) : Paints env c (finishPath painting call) :=
  behaves_finishPath painting call (.refl _) fun _ area rule => paints_expandPattern area rule off

omit [Scalar K] in
theorem paints_entry {keyword : String} {minOperands : Nat} {run : Call K → Action K σ Unit}
    (paints : ∀ env c call, Paints env c (run call)) :
    (entry keyword minOperands run).Follows Paints :=
  paints

theorem paints_inlineImageEntries :
    ∀ e ∈ inlineImageEntries (K := K) (σ := σ), e.Follows Paints := by
  simpa only [inlineImageEntries, List.forall_mem_singleton] using
    paints_entry fun _ _ call => paints_showInlineImage call

theorem paints_pathConstructionEntries :
    ∀ e ∈ pathConstructionEntries (K := K) (σ := σ), e.Follows Paints := by
  simp only [pathConstructionEntries, List.forall_mem_cons, List.not_mem_nil, false_implies,
    implies_true, and_true]
  exact ⟨paints_entry fun _ _ => paints_moveTo, paints_entry fun _ _ => paints_lineTo,
    paints_entry fun _ _ => paints_curveTo, paints_entry fun _ _ => paints_curveFromCurrent,
    paints_entry fun _ _ => paints_curveIntoEnd, paints_entry fun _ _ => paints_closePath,
    paints_entry fun _ _ => paints_appendRectangle⟩

theorem paints_colorEntries : ∀ e ∈ colorEntries (K := K) (σ := σ), e.Follows Paints := by
  simp only [colorEntries, List.forall_mem_cons, List.not_mem_nil, false_implies, implies_true,
    and_true, follows_deviceSetter]
  exact ⟨paints_entry fun _ _ => paints_selectSpace .stroke,
    paints_entry fun _ _ => paints_selectSpace .fill,
    paints_entry fun _ _ => paints_selectColor .stroke false,
    paints_entry fun _ _ => paints_selectColor .stroke true,
    paints_entry fun _ _ => paints_selectColor .fill false,
    paints_entry fun _ _ => paints_selectColor .fill true⟩

section Follows

variable {P : Environment K σ → Context K σ → Action K σ Unit → Prop}
  (paints : ∀ env c x, Paints env c x → P env c x)
  (finishes : ∀ env c painting call, P env c (finishPath painting call))

include paints finishes

theorem follows_pathPaintingEntries : ∀ e ∈ pathPaintingEntries (K := K) (σ := σ), e.Follows P := by
  have finishing (keyword : String) (painting : Painting) :
      (entry (K := K) (σ := σ) keyword 0 (finishPath painting)).Follows P :=
    fun env c call => finishes env c painting call
  have closing (keyword next : String) : (closeThen (K := K) (σ := σ) keyword next).Follows P :=
    fun _ => .ok _
  simp only [pathPaintingEntries, List.forall_mem_cons, List.not_mem_nil, false_implies,
    implies_true, and_true, finishing, closing, true_and]
  exact ⟨(paints_entry fun _ _ => paints_setPendingClip .nonZero).mono paints,
    (paints_entry fun _ _ => paints_setPendingClip .evenOdd).mono paints,
    (paints_entry fun _ _ => paints_paintShading).mono paints⟩

/-- Painting operators have a property that holds of what only paints and of finishing a path. -/
theorem follows_paintingEntries : ∀ e ∈ paintingEntries (K := K) (σ := σ), e.Follows P := by
  simp only [paintingEntries, List.forall_mem_append]
  refine ⟨⟨⟨?_, ?_⟩, follows_pathPaintingEntries paints finishes⟩, ?_⟩
  · intro e mem
    exact (paints_inlineImageEntries e mem).mono paints
  · intro e mem
    exact (paints_pathConstructionEntries e mem).mono paints
  · intro e mem
    exact (paints_colorEntries e mem).mono paints

end Follows

/-- Where patterns are not expanded, all painting operators only paint. -/
theorem paints_paintingEntries : ∀ e ∈ paintingEntries (K := K) (σ := σ),
    e.Follows fun env c x => env.options.expandPatterns = false → Paints env c x :=
  follows_paintingEntries (fun _ _ _ paints _ => paints) fun _ _ painting call off =>
    paints_finishPath painting call off

end PdfContent.Operators
