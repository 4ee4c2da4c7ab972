import PdfContent.Operators.Basic

/-!
# Tiling patterns

The cell of a tiling pattern is run as a nested stream with a fresh graphics state, placed relative to
the space that the whole run started with. Of the surrounding state only the clip is kept. An uncoloured
cell is painted in one given colour.
-/

namespace PdfContent.Operators

variable {K σ : Type} [Scalar K]

/-- The graphics state that a cell starts with. -/
def enterCell (pattern : TilingPattern K σ) (ctm : Matrix K) (paint : Option (ColorSpace × Color K))
    (s : GraphicsState K σ) : GraphicsState K σ :=
  let start := { GraphicsState.initial (σ := σ) ctm with clip := s.clip }.clipToBox pattern.bbox
  match paint with
  | none => start
  | some (space, color) =>
    { start with strokeSpace := space, fillSpace := space, strokeColor := color, fillColor := color }

/-- Runs a cell between its two events; at the depth limit there are no events. -/
def paintCell (name : String) (pattern : TilingPattern K σ) (paint : Option (ColorSpace × Color K)) :
    Action K σ Unit := do
  Action.checkDepth
  let env ← Action.environment
  let ctm := pattern.matrix.concat env.baseMatrix
  Action.emit (.beginPattern name ctm)
  (Action.nested pattern.content (pattern.scope.getD env.scope)
    (enterCell pattern ctm paint)).andFinally (Action.emit .endPattern)

/-- The colour that an uncoloured cell is painted in when it fills under a given state. -/
def cellPaint (pattern : TilingPattern K σ) (s : GraphicsState K σ) : Option (ColorSpace × Color K) :=
  match s.fillSpace with
  | .pattern (some base) =>
    if pattern.isUncolored then some (base, base.color s.fillColor.components) else none
  | _ => none

/-- The tiling pattern that fills are painted with, if it is to be expanded. -/
def selectedCell? (env : Environment K σ) (s : GraphicsState K σ) :
    Option (String × TilingPattern K σ) :=
  if env.options.expandPatterns then
    match s.fillColor.patternName? with
    | none => none
    | some name =>
      match env.resolver.pattern env.scope name with
      | some (.tiling pattern) => some (name, pattern)
      | _ => none
  else none

/-- Runs the cell of the pattern that an area has been filled with, clipped to the area. -/
def expandPattern (area : Path K) (rule : FillRule) : Action K σ Unit := do
  let env ← Action.environment
  let state ← Action.state
  match selectedCell? env state with
  | none => return ()
  | some (name, pattern) => do
    Action.modify fun c => { c with states := c.states.save }
    Action.updateState fun s => s.intersectClip area rule
    (paintCell name pattern (cellPaint pattern state)).andFinally restoreState

end PdfContent.Operators
