import PdfContent.Operators.Basic

/-!
# Graphics state operators

Saving and restoring, the map to device space, and the parameters of lines and rendering.
-/

namespace PdfContent.Operators

variable {K σ : Type} [Scalar K]

def save (_ : Call K) : Action K σ Unit := Action.modify fun c => { c with states := c.states.save }

def restore (_ : Call K) : Action K σ Unit := restoreState

def concatMatrix (call : Call K) : Except OperatorError (GraphicsState K σ → GraphicsState K σ) := do
  let m ← call.matrix
  return fun s => s.concat m

def setParameters (call : Call K) : Action K σ Unit := do
  let name ← Action.ofExcept (call.name 0)
  let env ← Action.environment
  let parameters ← Action.ofExcept (require .extGState name (env.resolver.stateParameters env.scope name))
  Action.updateState fun s => s.applyParameters parameters

def setLineWidth (call : Call K) : Except OperatorError (GraphicsState K σ → GraphicsState K σ) := do
  let lineWidth ← call.number 0
  return fun s => { s with lineWidth }

def setLineCap (call : Call K) : Except OperatorError (GraphicsState K σ → GraphicsState K σ) := do
  let value ← call.integer 0
  match LineCap.ofInt? value with
  | some lineCap => return fun s => { s with lineCap }
  | none => throw (.invalidValue call.keyword ("line cap " ++ toString value))

def setLineJoin (call : Call K) : Except OperatorError (GraphicsState K σ → GraphicsState K σ) := do
  let value ← call.integer 0
  match LineJoin.ofInt? value with
  | some lineJoin => return fun s => { s with lineJoin }
  | none => throw (.invalidValue call.keyword ("line join " ++ toString value))

def setMiterLimit (call : Call K) : Except OperatorError (GraphicsState K σ → GraphicsState K σ) := do
  let miterLimit ← call.number 0
  return fun s => { s with miterLimit }

/-- The numbers of a dash array. -/
def dashLengths (call : Call K) : List (Operand K) → Except OperatorError (List K)
  | [] => .ok []
  | v :: rest =>
    match v.number? with
    | some x => do return x :: (← dashLengths call rest)
    | none => .error (call.invalid 0 "array of numbers" v)

def setDash (call : Call K) : Except OperatorError (GraphicsState K σ → GraphicsState K σ) := do
  let items ← call.array 0
  let phase ← call.number 1
  let lengths ← dashLengths call items
  return fun s => { s with dash := ⟨lengths, phase⟩ }

def setRenderingIntent (call : Call K) : Except OperatorError (GraphicsState K σ → GraphicsState K σ) := do
  let name ← call.name 0
  return fun s => { s with renderingIntent := .ofName name }

def setFlatness (call : Call K) : Except OperatorError (GraphicsState K σ → GraphicsState K σ) := do
  let flatness ← call.number 0
  return fun s => { s with flatness }

def stateEntries : List (TableEntry K (Action K σ)) :=
  [entry "q" 0 save, entry "Q" 0 restore, setter "cm" 6 concatMatrix, entry "gs" 1 setParameters,
    setter "w" 1 setLineWidth, setter "J" 1 setLineCap, setter "j" 1 setLineJoin,
    setter "M" 1 setMiterLimit, setter "d" 2 setDash, setter "ri" 1 setRenderingIntent,
    setter "i" 1 setFlatness]

end PdfContent.Operators
