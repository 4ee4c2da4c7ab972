import PdfContent.Operators.Basic

/-!
# Text state and text positioning operators

Text state parameters can be set anywhere; positioning text needs an open text object.
-/

namespace PdfContent.Operators

variable {K σ : Type} [Scalar K]

/-- The open text object. -/
def textObject (keyword : String) : Action K σ (TextObject K) := do
  match (← Action.context).text with
  | some object => return object
  | none => throw (OperatorError.outsideTextObject keyword)

/-- Changes the open text object. -/
def updateTextObject (keyword : String) (f : TextObject K → TextObject K) : Action K σ Unit := do
  let object ← textObject keyword
  Action.modify fun c => { c with text := some (f object) }

def beginText (_ : Call K) : Action K σ Unit := do
  Action.modify fun c => { c with text := some .initial }
  Action.emit .beginText

def endText (call : Call K) : Action K σ Unit := do
  let _ ← textObject call.keyword
  Action.modify fun c => { c with text := none }
  Action.emit .endText

/-- An operator that sets a number of the text state. -/
def textSetter (keyword : String) (set : K → TextState K σ → TextState K σ) : TableEntry K (Action K σ) :=
  setter keyword 1 fun call => do
    let x ← call.number 0
    return fun s => { s with text := set x s.text }

/-- Selects a font. One that cannot be found is replaced by the fallback font, and the error is
reported all the same. -/
def setFont (call : Call K) : Action K σ Unit := do
  let name ← Action.ofExcept (call.name 0)
  let size ← Action.ofExcept (call.number 1)
  let env ← Action.environment
  let found := env.resolver.font env.scope name
  if found.any Font.vertical then
    Action.warnAt call.keyword .textState
      ("font /" ++ name ++ " uses vertical writing; glyphs advance horizontally")
  Action.updateText fun t =>
    { t with font := some (found.getD Font.fallback), fontName := some name, fontSize := size }
  if found.isNone then throw (OperatorError.missingResource .font name)

def setRenderMode (call : Call K) : Except OperatorError (GraphicsState K σ → GraphicsState K σ) := do
  let value ← call.integer 0
  match TextRenderMode.ofInt? value with
  | some renderMode => return fun s => { s with text := { s.text with renderMode } }
  | none => throw (.invalidValue call.keyword ("text rendering mode " ++ toString value))

def moveText (call : Call K) : Action K σ Unit := do
  let tx ← Action.ofExcept (call.number 0)
  let ty ← Action.ofExcept (call.number 1)
  updateTextObject call.keyword fun t => t.moveLine tx ty

/-- Sets the leading to the opposite of the vertical distance, then moves. -/
def moveTextSetLeading (call : Call K) : Except OperatorError (List (String × List (Operand K))) := do
  let ty ← call.number 1
  return [("TL", [.real (-ty)]), ("Td", call.operands)]

def setTextMatrix (call : Call K) : Action K σ Unit := do
  let m ← Action.ofExcept call.matrix
  updateTextObject call.keyword fun t => t.setMatrix m

def nextLine (call : Call K) : Action K σ Unit := do
  let leading := (← Action.state).text.leading
  updateTextObject call.keyword fun t => t.moveLine 0 (-leading)

def textStateEntries : List (TableEntry K (Action K σ)) :=
  [entry "BT" 0 beginText, entry "ET" 0 endText,
    textSetter "Tc" fun charSpacing t => { t with charSpacing },
    textSetter "Tw" fun wordSpacing t => { t with wordSpacing },
    textSetter "Tz" fun horizontalScaling t => { t with horizontalScaling },
    textSetter "TL" fun leading t => { t with leading },
    entry "Tf" 2 setFont, setter "Tr" 1 setRenderMode,
    textSetter "Ts" fun rise t => { t with rise },
    entry "Td" 2 moveText, compound "TD" 2 moveTextSetLeading, entry "Tm" 6 setTextMatrix,
    entry "T*" 0 nextLine]

end PdfContent.Operators
