import PdfContent.Operators.Basic

/-!
# Marked content and compatibility sections

Marked content is reported to the device with its tag and properties. The properties are a dictionary,
or the name of one in the resources.
-/

namespace PdfContent.Operators

variable {K σ : Type} [Scalar K]

/-- The property list of the second operand. -/
def propertyList (env : Environment K σ) (call : Call K) : Except OperatorError (Dictionary K) :=
  match call.operands[1]? with
  | some (Operand.name name) => require .properties name (env.resolver.properties env.scope name)
  | _ => call.dictionary 1

def beginMarked (call : Call K) : Action K σ Unit := do
  let tag ← Action.ofExcept (call.name 0)
  Action.emit (.beginMarked tag none)

/-- The sequence begins even where its properties cannot be found, so that its end matches. -/
def beginMarkedWithProperties (call : Call K) : Action K σ Unit := do
  let tag ← Action.ofExcept (call.name 0)
  match propertyList (← Action.environment) call with
  | .ok properties => Action.emit (.beginMarked tag (some properties))
  | .error e => do
    Action.emit (.beginMarked tag none)
    throw e

def endMarked (_ : Call K) : Action K σ Unit := Action.emit .endMarked

def markPoint (call : Call K) : Action K σ Unit := do
  let tag ← Action.ofExcept (call.name 0)
  Action.emit (.markedPoint tag none)

def markPointWithProperties (call : Call K) : Action K σ Unit := do
  let tag ← Action.ofExcept (call.name 0)
  let properties ← Action.ofExcept (propertyList (← Action.environment) call)
  Action.emit (.markedPoint tag (some properties))

def beginCompatibility (_ : Call K) : Action K σ Unit :=
  Action.modify fun c => { c with compatibility := c.compatibility + 1 }

/-- An end without a beginning does nothing. -/
def endCompatibility (_ : Call K) : Action K σ Unit :=
  Action.modify fun c => { c with compatibility := c.compatibility - 1 }

def markedEntries : List (TableEntry K (Action K σ)) :=
  [entry "BMC" 1 beginMarked, entry "BDC" 2 beginMarkedWithProperties, entry "EMC" 0 endMarked,
    entry "MP" 1 markPoint, entry "DP" 2 markPointWithProperties, entry "BX" 0 beginCompatibility,
    entry "EX" 0 endCompatibility]

end PdfContent.Operators
