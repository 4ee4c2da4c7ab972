import PdfContent.Operators.Basic

/-!
# Path construction operators

Paths are built in device space. Where a segment needs a current point and there is none, its end point
starts a subpath instead and a warning is given.
-/

namespace PdfContent.Operators

variable {K σ : Type} [Scalar K]

/-- The point in device space that two operands give. -/
def devicePoint (call : Call K) (index : Nat) : Action K σ (Point K) := do
  let x ← Action.ofExcept (call.number index)
  let y ← Action.ofExcept (call.number (index + 1))
  return (← Action.state).ctm.applyPoint ⟨x, y⟩

/-- Changes the path under construction and tells the device. -/
def construct (f : PathBuilder K → PathBuilder K) (e : Event K σ) : Action K σ Unit := do
  Action.modify fun c => { c with path := f c.path }
  Action.emit e

def startSubpath (p : Point K) : Action K σ Unit := construct (fun b => b.moveTo p) (.moveTo p)

/-- Continues from the current point; without one, starts a subpath at `stop`. -/
def fromCurrentPoint (keyword : String) (stop : Point K) (f : Point K → Action K σ Unit) :
    Action K σ Unit := do
  match (← Action.context).path.current with
  | some p => f p
  | none => do
    Action.warnAt keyword .invalidOperand
      ("'" ++ keyword ++ "' without a current point; treated as moveto")
    startSubpath stop

def addCurve (p q r : Point K) : Action K σ Unit := construct (fun b => b.curveTo p q r) (.curveTo p q r)

def moveTo (call : Call K) : Action K σ Unit := do
  startSubpath (← devicePoint call 0)

def lineTo (call : Call K) : Action K σ Unit := do
  let p ← devicePoint call 0
  fromCurrentPoint call.keyword p fun _ => construct (fun b => b.lineTo p) (.lineTo p)

def curveTo (call : Call K) : Action K σ Unit := do
  let p ← devicePoint call 0
  let q ← devicePoint call 2
  let r ← devicePoint call 4
  fromCurrentPoint call.keyword r fun _ => addCurve p q r

/-- A curve whose first control point is the current point. -/
def curveFromCurrent (call : Call K) : Action K σ Unit := do
  let q ← devicePoint call 0
  let r ← devicePoint call 2
  fromCurrentPoint call.keyword r fun p => addCurve p q r

/-- A curve whose second control point is its end. -/
def curveIntoEnd (call : Call K) : Action K σ Unit := do
  let p ← devicePoint call 0
  let r ← devicePoint call 2
  fromCurrentPoint call.keyword r fun _ => addCurve p r r

/-- Without a current point there is nothing to close. -/
def closePath (_ : Call K) : Action K σ Unit := do
  if (← Action.context).path.current.isSome then construct PathBuilder.close .closePath

/-- Appends a rectangle with its corners in drawing order; negative sizes keep their winding. -/
def appendRectangle (call : Call K) : Action K σ Unit := do
  let x ← Action.ofExcept (call.number 0)
  let y ← Action.ofExcept (call.number 1)
  let w ← Action.ofExcept (call.number 2)
  let h ← Action.ofExcept (call.number 3)
  let ctm := (← Action.state).ctm
  let p := ctm.applyPoint ⟨x, y⟩
  let q := ctm.applyPoint ⟨x + w, y⟩
  let r := ctm.applyPoint ⟨x + w, y + h⟩
  let s := ctm.applyPoint ⟨x, y + h⟩
  construct (fun b => b.quad p q r s) (.rectangle p q r s)

def pathConstructionEntries : List (TableEntry K (Action K σ)) :=
  [entry "m" 2 moveTo, entry "l" 2 lineTo, entry "c" 6 curveTo, entry "v" 4 curveFromCurrent,
    entry "y" 4 curveIntoEnd, entry "h" 0 closePath, entry "re" 4 appendRectangle]

end PdfContent.Operators
