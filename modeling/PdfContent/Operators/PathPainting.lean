import PdfContent.Operators.Tiling

/-!
# Path painting and clipping operators

A painting operator takes the path under construction and the pending clip. The device is told how the
path is painted with the state of before the clip; the clip takes effect afterwards.
-/

namespace PdfContent.Operators

variable {K σ : Type} [Scalar K]

/-- How a finished path is painted. -/
inductive Painting
  | stroke
  | fill (rule : FillRule)
  | fillStroke (rule : FillRule)
  | nothing

def Painting.event (painting : Painting) (path : Path K) (s : GraphicsState K σ) : Event K σ :=
  match painting with
  | .stroke => .stroke path s
  | .fill rule => .fill path rule s
  | .fillStroke rule => .fillStroke path rule s
  | .nothing => .endPath

/-- The rule by which the inside is painted. -/
def Painting.fillRule? : Painting → Option FillRule
  | .fill rule => some rule
  | .fillStroke rule => some rule
  | _ => none

/-- Takes the path under construction and the pending clip. -/
def takePath : Action K σ (Path K × Option FillRule) := do
  let c ← Action.context
  Action.modify fun c => { c with path := .empty, pendingClip := none }
  return (c.path.path, c.pendingClip)

def applyClip (path : Path K) (rule : FillRule) : Action K σ Unit := do
  Action.emit (.clip path rule)
  Action.updateState fun s => s.intersectClip path rule

/-- Paints the area of a path with the pattern of the fill, where the path is filled. -/
def expandFill (painting : Painting) (path : Path K) : Action K σ Unit :=
  match painting.fillRule? with
  | some rule => expandPattern path rule
  | none => pure ()

/-- Paints the path under construction; an empty one is dropped together with a pending clip. -/
def finishPath (painting : Painting) (_ : Call K) : Action K σ Unit := do
  let (path, clip) ← takePath
  if path.isEmpty then return ()
  Action.emit (painting.event path (← Action.state))
  match clip with
  | some rule => applyClip path rule
  | none => pure ()
  expandFill painting path

/-- An operator that closes the path and goes on with another operator. -/
def closeThen (keyword : String) (next : String) : TableEntry K (Action K σ) :=
  compound keyword 0 fun _ => .ok [("h", []), (next, [])]

def setPendingClip (rule : FillRule) (_ : Call K) : Action K σ Unit :=
  Action.modify fun c => { c with pendingClip := some rule }

def paintShading (call : Call K) : Action K σ Unit := do
  let name ← Action.ofExcept (call.name 0)
  let env ← Action.environment
  let shading ← Action.ofExcept (require .shading name (env.resolver.shading env.scope name))
  Action.emit (.shading name shading (← Action.state))

def pathPaintingEntries : List (TableEntry K (Action K σ)) :=
  [entry "S" 0 (finishPath .stroke), closeThen "s" "S", entry "f" 0 (finishPath (.fill .nonZero)),
    entry "F" 0 (finishPath (.fill .nonZero)), entry "f*" 0 (finishPath (.fill .evenOdd)),
    entry "B" 0 (finishPath (.fillStroke .nonZero)), entry "B*" 0 (finishPath (.fillStroke .evenOdd)),
    closeThen "b" "B", closeThen "b*" "B*", entry "n" 0 (finishPath .nothing),
    entry "W" 0 (setPendingClip .nonZero), entry "W*" 0 (setPendingClip .evenOdd),
    entry "sh" 1 paintShading]

end PdfContent.Operators
