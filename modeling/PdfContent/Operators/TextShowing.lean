import PdfContent.Operators.TextState

/-!
# Text showing operators

Each code of a shown string is one glyph event, after which the text matrix moves on by the glyph's
advance. The glyphs of a Type 3 font are drawn by running their procedures as nested streams.
-/

namespace PdfContent.Operators

variable {K σ : Type} [Scalar K]

/-- The event of one code, under the given graphics state and text object. `raw` are the bytes that
spell the code; word spacing is added for the single byte of a space. -/
def glyphEvent (font : Font K σ) (state : GraphicsState K σ) (object : TextObject K) (code : UInt32)
    (raw : Bytes) : GlyphEvent K σ :=
  let text := state.text
  let scale := text.horizontalScale
  let displacement := font.matrix.applyVector ⟨font.width code, 0⟩
  let renderingMatrix := (text.parameterMatrix.concat object.matrix).concat state.ctm
  let wordSpacing := if raw == [0x20] then text.wordSpacing else 0
  { code
    text := font.text? code
    font
    fontName := text.fontName
    fontSize := text.fontSize
    horizontalScale := scale
    glyphMatrix := font.matrix.concat renderingMatrix
    renderingMatrix
    textMatrix := object.matrix
    ctm := state.ctm
    displacement
    advance := (displacement.x * text.fontSize + text.charSpacing + wordSpacing) * scale
    mode := text.renderMode }

/-- Tells the device about a glyph, and draws it if it has a procedure and something is drawn at all. A
procedure that cannot be run is reported; only a fault in its content ends the string. -/
def showGlyph (keyword : String) (glyph : GlyphEvent K σ) : Action K σ Unit := do
  Action.emit (.glyph glyph (← Action.state))
  let env ← Action.environment
  if env.receiver = .device && glyph.font.kind = .type3 && env.options.runGlyphProcedures then
    match glyph.font.procedure? glyph.code with
    | none => pure ()
    | some procedure =>
      let draw := Action.nested procedure.content (procedure.scope.getD env.scope) fun s =>
        { s with ctm := glyph.glyphMatrix }
      draw.handle fun
        | .fatal cause => throw (OperatorError.fatal cause)
        | e => Action.warnError keyword e

/-- Shows codes one after another. -/
def showCodes (keyword : String) (font : Font K σ) : List (UInt32 × Bytes) → Action K σ Unit
  | [] => pure ()
  | (code, raw) :: rest => do
    let object ← textObject keyword
    let glyph := glyphEvent font (← Action.state) object code raw
    showGlyph keyword glyph
    updateTextObject keyword fun t => t.advance glyph.advance 0
    showCodes keyword font rest

/-- Shows a string in the selected font; without one, in the fallback font. -/
def showString (keyword : String) (bytes : Bytes) : Action K σ Unit := do
  let _ ← textObject keyword
  match (← Action.state).text.font with
  | some font => showCodes keyword font (font.decode bytes)
  | none => do
    Action.warnAt keyword .textState "text shown before any font was selected"
    showCodes keyword Font.fallback ((Font.fallback (K := K) (σ := σ)).decode bytes)

def showText (call : Call K) : Action K σ Unit := do
  showString call.keyword (← Action.ofExcept (call.string 0))

/-- How far a number between strings moves the text on, in thousandths of the font size to the left. -/
def adjustment (text : TextState K σ) (amount : K) : K :=
  -amount / Scalar.ofInt 1000 * text.fontSize * text.horizontalScale

/-- Shows strings and moves by numbers, in order, starting with the element at `index`. -/
def showElements (call : Call K) (index : Nat) : List (Operand K) → Action K σ Unit
  | [] => pure ()
  | v :: rest => do
    match v with
    | .literal bytes => showString call.keyword bytes
    | .hexadecimal bytes => showString call.keyword bytes
    | .integer i => adjust (Scalar.ofInt i)
    | .real x => adjust x
    | other => throw (call.invalid index "string or number" other)
    showElements call (index + 1) rest
where
  adjust (amount : K) : Action K σ Unit := do
    let tx := adjustment (← Action.state).text amount
    updateTextObject call.keyword fun t => t.advance tx 0

def showTextAdjusted (call : Call K) : Action K σ Unit := do
  let items ← Action.ofExcept (call.array 0)
  let _ ← textObject call.keyword
  showElements call 0 items

def nextLineShowText (call : Call K) : Except OperatorError (List (String × List (Operand K))) :=
  .ok [("T*", []), ("Tj", call.operands.take 1)]

def nextLineShowTextSpaced (call : Call K) : Except OperatorError (List (String × List (Operand K))) :=
  .ok [("Tw", call.operands.take 1), ("Tc", (call.operands.drop 1).take 1),
    ("'", (call.operands.drop 2).take 1)]

def textShowingEntries : List (TableEntry K (Action K σ)) :=
  [entry "Tj" 1 showText, entry "TJ" 1 showTextAdjusted, compound "'" 1 nextLineShowText,
    compound "\"" 3 nextLineShowTextSpaced, ignored "d0" 2, ignored "d1" 6]

end PdfContent.Operators
