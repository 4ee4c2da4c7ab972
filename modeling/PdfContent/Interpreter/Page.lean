import PdfContent.Operators.Tables

/-!
# Running pages, annotations and pattern cells

Each of these is one run. A page starts with the graphics state of its base matrix; the appearance of an
annotation is fitted into the annotation's rectangle; the cell of a tiling pattern is run by itself.
-/

namespace PdfContent

variable {K σ : Type} [Scalar K]

namespace RunSettings

/-- Runs content with the graphics state that a page starts with. -/
def page (r : RunSettings K σ) (content : Bytes) (scope : σ) : Outcome ContentError K σ Unit :=
  r.run content scope (.initial r.baseMatrix)

/-- The settings for painting with the built-in operators. -/
def graphics (options : Options) (baseMatrix : Matrix K) (resolver : Resolver K σ) : RunSettings K σ :=
  ⟨options, .device, baseMatrix, resolver, Operators.graphicsTable⟩

/-- The settings for finding text. Nothing is drawn. -/
def text (options : Options) (resolver : Resolver K σ) : RunSettings K σ :=
  ⟨options, .textPlacement, .identity, resolver, Operators.textTable⟩

end RunSettings

/-- The map that takes one box onto another: first to the origin, then to size, then in place. None if
one of them is empty. -/
def BBox.fit? (placed rect : BBox K) : Option (Matrix K) :=
  if rect.width ≤ 0 ∨ rect.height ≤ 0 ∨ placed.width ≤ 0 ∨ placed.height ≤ 0 then none
  else
    some (((Matrix.shift (-placed.x0) (-placed.y0)).concat
      (Matrix.scaling (rect.width / placed.width) (rect.height / placed.height))).concat
      (Matrix.shift rect.x0 rect.y0))

/-- The map to device space that an appearance is run with, so that its box fills the annotation's
rectangle. -/
def Form.appearanceMatrix? (form : Form K σ) (rect : BBox K) : Option (Matrix K) :=
  ((form.bbox.transform form.matrix).fit? rect).map form.matrix.concat

/-- Runs the appearance of an annotation between the events of a form. Nothing happens if the rectangle
or the appearance is empty. -/
def RunSettings.appearance (r : RunSettings K σ) (form : Form K σ) (rect : BBox K) (scope : σ) :
    Outcome ContentError K σ Unit :=
  let start : RunState K σ := .initial r.baseMatrix
  match form.appearanceMatrix? rect with
  | none => ⟨.ok (), start, []⟩
  | some ctm =>
    let placed := start.updateContext fun c => c.updateState fun s => { s with ctm }.clipToBox form.bbox
    let o := r.run form.content (form.scope.getD scope) placed
    { o with
      log := .event (.beginForm (Operators.formEvent "appearance" form ctm)) :: o.log ++
        [.event .endForm] }

/-- Paints a cell outside all streams. A cell that may not be opened is reported. -/
def Operators.paintCellAlone (name : String) (pattern : TilingPattern K σ)
    (paint : Option (ColorSpace × Color K)) : Action K σ Unit :=
  (paintCell name pattern paint).handle fun
    | .fatal cause => throw (OperatorError.fatal cause)
    | e => Action.warnError "PaintType" e

/-- Runs the cell of a tiling pattern by itself. -/
def RunSettings.tilingCell (r : RunSettings K σ) (name : String) (pattern : TilingPattern K σ)
    (paint : Option (ColorSpace × Color K)) (scope : σ) : Outcome ContentError K σ Unit :=
  let o := (Operators.paintCellAlone name pattern paint).run (r.environment scope)
    (r.nestedRun r.options.maxDepth) (.initial r.baseMatrix)
  { o with
    result := match o.result with
      | .error (.fatal cause) => .error cause
      | _ => .ok () }

end PdfContent
