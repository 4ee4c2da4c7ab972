import PdfContent.Interpreter.Context

/-!
# What a run tells its surroundings

`Event`s are what a device is told, in order. A log holds the events of a run and, between them, marks
that say which operator of which stream is being carried out and where nested streams begin and end.
Each mark comes with the state of the run at that moment.
-/

namespace PdfContent

/-- One glyph of a shown string. -/
structure GlyphEvent (K σ : Type) where
  code : UInt32
  text : Option String
  font : Font K σ
  fontName : Option String
  fontSize : K
  horizontalScale : K
  /-- From glyph space to device space. -/
  glyphMatrix : Matrix K
  /-- From unscaled text space to device space. -/
  renderingMatrix : Matrix K
  textMatrix : Matrix K
  ctm : Matrix K
  /-- The advance width in text space at size one. -/
  displacement : Point K
  /-- How far the text matrix moves on. -/
  advance : K
  mode : TextRenderMode

structure ImageEvent (K : Type) where
  name : Option String
  ctm : Matrix K
  image : Image
  inline : Option (InlineImage K)

structure FormEvent (K : Type) where
  name : String
  ctm : Matrix K
  bbox : BBox K
  group : Option TransparencyGroup

inductive Event (K σ : Type)
  | moveTo (p : Point K)
  | lineTo (p : Point K)
  | curveTo (p q r : Point K)
  | closePath
  | rectangle (p q r s : Point K)
  | stroke (path : Path K) (state : GraphicsState K σ)
  | fill (path : Path K) (rule : FillRule) (state : GraphicsState K σ)
  | fillStroke (path : Path K) (rule : FillRule) (state : GraphicsState K σ)
  | endPath
  | clip (path : Path K) (rule : FillRule)
  | shading (name : String) (shading : Shading K) (state : GraphicsState K σ)
  | image (image : ImageEvent K) (state : GraphicsState K σ)
  | beginForm (form : FormEvent K)
  | endForm
  | beginPattern (name : String) (ctm : Matrix K)
  | endPattern
  | beginText
  | endText
  | glyph (glyph : GlyphEvent K σ) (state : GraphicsState K σ)
  | beginMarked (tag : String) (properties : Option (Dictionary K))
  | endMarked
  | markedPoint (tag : String) (properties : Option (Dictionary K))
  | warning (warning : Warning)
  /-- What an operator was given and saw, for operators that report it. -/
  | snapshot (place : Place) (operands : List (Operand K)) (context : Context K σ)

/-- The glyph that is shown, whatever state the device is given with it. -/
def Event.glyph? {K σ : Type} : Event K σ → Option (GlyphEvent K σ)
  | .glyph g _ => some g
  | _ => none

inductive Entry (K σ : Type)
  | event (event : Event K σ)
  /-- An operator of a stream is about to be carried out. -/
  | started (call : Call K) (state : RunState K σ)
  /-- The operator has been carried out or has failed. -/
  | finished (call : Call K) (result : Except OperatorError Unit) (state : RunState K σ)
  /-- A nested stream begins. -/
  | opened (content : Bytes) (state : RunState K σ)
  /-- A nested stream has ended, by a fault in its content if there is one. -/
  | closed (result : Except ContentError Unit) (state : RunState K σ)

namespace GlyphEvent

variable {K σ : Type} [Scalar K]

/-- Where the glyph starts in device space. -/
def origin (g : GlyphEvent K σ) : Point K := g.renderingMatrix.applyPoint ⟨0, 0⟩

end GlyphEvent

/-- The image of the unit square, which every image fills. -/
def ImageEvent.bounds {K : Type} [Scalar K] (e : ImageEvent K) : BBox K :=
  (BBox.ofCorners 0 0 1 1).transform e.ctm

namespace Entry

variable {K σ : Type}

def event? : Entry K σ → Option (Event K σ)
  | .event e => some e
  | _ => none

/-- The events of a log in order. -/
def events (log : List (Entry K σ)) : List (Event K σ) := log.filterMap event?

@[simp] theorem events_nil : events ([] : List (Entry K σ)) = [] := rfl

@[simp] theorem events_event_cons (e : Event K σ) (log : List (Entry K σ)) :
    events (.event e :: log) = e :: events log := rfl

@[simp] theorem events_append (a b : List (Entry K σ)) : events (a ++ b) = events a ++ events b :=
  List.filterMap_append

/-- The warnings of a log in order. -/
def warnings (log : List (Entry K σ)) : List Warning :=
  log.filterMap fun
    | .event (.warning w) => some w
    | _ => none

/-- The glyphs of a log in order. -/
def glyphs (log : List (Entry K σ)) : List (GlyphEvent K σ) := (events log).filterMap Event.glyph?

@[simp] theorem glyphs_nil : glyphs ([] : List (Entry K σ)) = [] := rfl

/-- A mark between the events shows no glyph. -/
theorem glyphs_cons_of_mark {x : Entry K σ} (mark : x.event? = none) (log : List (Entry K σ)) :
    glyphs (x :: log) = glyphs log := by
  simp [glyphs, events, mark]

theorem glyphs_event (e : Event K σ) : glyphs [.event e] = e.glyph?.toList := by
  cases h : e.glyph? <;> simp [glyphs, events, event?, h]

@[simp] theorem glyphs_append (a b : List (Entry K σ)) : glyphs (a ++ b) = glyphs a ++ glyphs b := by
  simp [glyphs]

/-- What a run has overflowed by: a font that it has selected or shown text in has been asked for what it
cannot say. The program has ended there. -/
def overflow? (log : List (Entry K σ)) : Option Overflow :=
  log.findSome? fun
    | .event (.glyph g _) => g.font.overflow? (.width g.code)
    | .finished _ _ s => s.state.text.font.bind fun font => font.overflow? .selection
    | _ => none

end Entry

end PdfContent
