import PdfContent.Operators.Basic

/-!
# Colour operators

Selecting a colour space sets its initial colour; the device operators select a space and a colour in
one. Colours are in single precision.
-/

namespace PdfContent.Operators

variable {K σ : Type} [Scalar K]

/-- Strokes and fills have a colour each. -/
inductive PaintTarget
  | stroke
  | fill

/-- The colour space that is selected for a target. -/
def selectedSpace (s : GraphicsState K σ) : PaintTarget → ColorSpace
  | .stroke => s.strokeSpace
  | .fill => s.fillSpace

def setColorIn (s : GraphicsState K σ) (color : Color K) : PaintTarget → GraphicsState K σ
  | .stroke => { s with strokeColor := color }
  | .fill => { s with fillColor := color }

def setSpaceIn (s : GraphicsState K σ) (space : ColorSpace) (color : Color K) :
    PaintTarget → GraphicsState K σ
  | .stroke => { s with strokeSpace := space, strokeColor := color }
  | .fill => { s with fillSpace := space, fillColor := color }

/-- The components that operands give, the first of them at the given index. -/
def colorComponents (keyword : String) (index : Nat) : List (Operand K) → Except OperatorError (List K)
  | [] => .ok []
  | v :: rest =>
    match v.number? with
    | some x => do return Scalar.single x :: (← colorComponents keyword (index + 1) rest)
    | none => .error (.invalidOperand keyword index "number" v.typeName)

def selectSpace (target : PaintTarget) (call : Call K) : Action K σ Unit := do
  let name ← Action.ofExcept (call.name 0)
  let env ← Action.environment
  let found := (ColorSpace.ofDeviceName? name).or (env.resolver.colorSpace env.scope name)
  let space ← Action.ofExcept (require .colorSpace name found)
  Action.updateState fun s => setSpaceIn s space space.initialColor target

/-- The operands before a pattern name that stands last, and that name. -/
def splitPattern (operands : List (Operand K)) : List (Operand K) × Option String :=
  match operands.getLast? with
  | some (.name name) => (operands.dropLast, some name)
  | _ => (operands, none)

/-- The colour that operands select in a space, as components or as a pattern. -/
def selectedColor (call : Call K) (space : ColorSpace) (patterns : Bool) :
    Except OperatorError (Color K) := do
  let (operands, pattern) := if patterns then splitPattern call.operands else (call.operands, none)
  let components ← colorComponents call.keyword 0 operands
  match pattern with
  | some name => return .pattern (some name) components
  | none =>
    if components.length < space.componentCount then
      throw (.missingOperand call.keyword space.componentCount components.length)
    return space.color components

/-- Selects a colour in the current space; some operators may name a pattern. -/
def selectColor (target : PaintTarget) (patterns : Bool) (call : Call K) : Action K σ Unit := do
  let space := selectedSpace (← Action.state) target
  let color ← Action.ofExcept (selectedColor call space patterns)
  Action.updateState fun s => setColorIn s color target

/-- Selects a device space and a colour in it. -/
def deviceSetter (keyword : String) (target : PaintTarget) (space : ColorSpace) :
    TableEntry K (Action K σ) :=
  setter keyword space.componentCount fun call => do
    let components ← colorComponents call.keyword 0 (call.operands.take space.componentCount)
    return fun s => setSpaceIn s space (space.color components) target

def colorEntries : List (TableEntry K (Action K σ)) :=
  [entry "CS" 1 (selectSpace .stroke), entry "cs" 1 (selectSpace .fill),
    entry "SC" 0 (selectColor .stroke false), entry "SCN" 0 (selectColor .stroke true),
    entry "sc" 0 (selectColor .fill false), entry "scn" 0 (selectColor .fill true),
    deviceSetter "G" .stroke .deviceGray, deviceSetter "g" .fill .deviceGray,
    deviceSetter "RG" .stroke .deviceRGB, deviceSetter "rg" .fill .deviceRGB,
    deviceSetter "K" .stroke .deviceCMYK, deviceSetter "k" .fill .deviceCMYK]

end PdfContent.Operators
