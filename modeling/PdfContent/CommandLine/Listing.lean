import PdfContent.Decimal.Fixed
import PdfContent.Interchange
import PdfContent.Layout.TextPosition
import PdfContent.Text.Quoted

/-!
# Listings

What is listed of a page: a line of text for each thing, and the entries of a JSON object with the same
content. Coordinates and sizes in lines have two places; in objects they are exact.
-/

namespace PdfContent.CommandLine

/-- One listed thing. -/
structure Item where
  line : String
  entries : List (String × Json)

namespace Listing

def point (p : Point Float) : String := twoPlaces p.x ++ " " ++ twoPlaces p.y

def matrix (m : Matrix Float) : String := "[" ++ " ".intercalate (m.toList.map twoPlaces) ++ "]"

def segment : Segment Float → String
  | .moveTo p => "M " ++ point p
  | .lineTo p => "L " ++ point p
  | .curveTo p q r => "C " ++ point p ++ " " ++ point q ++ " " ++ point r
  | .close => "Z"

def path (p : Path Float) : String := " ".intercalate (p.segments.map segment)

variable {σ : Type}

/-- A path that is painted in a certain way. -/
def paint (op : String) (p : Path Float) (rule : Option FillRule) (state : GraphicsState Float σ) : Item where
  line :=
    let ruled := match rule with
      | some rule => " rule=" ++ rule.label
      | none => ""
    op ++ " " ++ path p ++ ruled ++ " lw=" ++ twoPlaces state.lineWidth
  entries :=
    [("op", .str op), ("path", p.toJson), ("rule", Json.ofOption (rule.map (Interchange.nameIn FillRule.names))),
      ("line_width", .num state.lineWidth), ("stroke_color", state.strokeColor.toJson),
      ("fill_color", state.fillColor.toJson)]

def image (i : ImageEvent Float) : Item where
  line :=
    "image /" ++ i.name.getD "inline" ++ " " ++ toString i.image.width ++ "x" ++ toString i.image.height ++
      " ctm=" ++ matrix i.ctm
  entries :=
    [("op", .str "image"), ("name", Json.ofOption (i.name.map .str)), ("width", .ofNat i.image.width),
      ("height", .ofNat i.image.height), ("ctm", i.ctm.toJson), ("bounds", i.bounds.toJson)]

def glyph (g : GlyphEvent Float σ) : Item where
  line :=
    "glyph " ++ toString g.code.toNat ++ " " ++ Text.quoted (g.text.getD "") ++ " at " ++ point g.origin ++
      " size=" ++ twoPlaces g.fontSize
  entries :=
    [("op", .str "glyph"), ("code", .ofNat g.code.toNat), ("text", Json.ofOption (g.text.map .str)),
      ("font", .str g.font.name), ("size", .num g.fontSize), ("origin", g.origin.toJson),
      ("advance", .num g.advance)]

/-- Something with nothing but a name. -/
def named (op key name : String) (entries : List (String × Json)) : Item :=
  ⟨op ++ " /" ++ name, ("op", .str op) :: (key, .str name) :: entries⟩

/-- Something with a name and a place. -/
def placed (op name : String) (ctm : Matrix Float) (entries : List (String × Json)) : Item :=
  ⟨op ++ " /" ++ name ++ " ctm=" ++ matrix ctm,
    ("op", .str op) :: ("name", .str name) :: ("ctm", ctm.toJson) :: entries⟩

/-- The end of something. -/
def plain (op : String) : Item := ⟨op, [("op", .str op)]⟩

/-- What is listed of an event. The steps of building a path are not listed, nor are text objects and
warnings. -/
def ofEvent? : Event Float σ → Option Item
  | .stroke p s => some (paint "stroke" p none s)
  | .fill p rule s => some (paint "fill" p (some rule) s)
  | .fillStroke p rule s => some (paint "fill_stroke" p (some rule) s)
  | .clip p rule =>
    some ⟨"clip " ++ path p ++ " rule=" ++ rule.label,
      [("op", .str "clip"), ("path", p.toJson), ("rule", Interchange.nameIn FillRule.names rule)]⟩
  | .shading name shading _ =>
    some ⟨"shading /" ++ name ++ " type=" ++ toString shading.kind,
      [("op", .str "shading"), ("name", .str name), ("shading_type", .int shading.kind)]⟩
  | .image i _ => some (image i)
  | .beginForm f => some (placed "begin_form" f.name f.ctm [("bbox", f.bbox.toJson)])
  | .endForm => some (plain "end_form")
  | .beginPattern name ctm => some (placed "begin_pattern" name ctm [])
  | .endPattern => some (plain "end_pattern")
  | .glyph g _ => some (glyph g)
  | .beginMarked tag properties =>
    let mcid := (properties.bind fun d => d.get? "MCID").bind Operand.integer?
    some (named "begin_marked" "tag" tag [("mcid", Json.ofOption (mcid.map .int))])
  | .endMarked => some (plain "end_marked")
  | .markedPoint tag _ => some (named "marked_point" "tag" tag [])
  | .moveTo _ | .lineTo _ | .curveTo _ _ _ | .closePath | .rectangle _ _ _ _ | .endPath | .beginText
  | .endText | .warning _ | .snapshot _ _ _ => none

/-- The beginning of an annotation. -/
def annotation (subtype : String) (rect : BBox Float) : Item :=
  ⟨"annotation " ++ subtype, [("op", .str "annotation"), ("subtype", .str subtype), ("rect", rect.toJson)]⟩

/-- A piece of text on a page. -/
def char (page : Nat) (t : TextPosition Float σ) : Item where
  line :=
    "\t".intercalate [toString page, t.text, twoPlaces t.x, twoPlaces t.y, twoPlaces t.adjustedWidth,
      twoPlaces t.height, t.glyph.font.name, twoPlaces t.glyph.sizeInPoints, toString t.direction]
  entries :=
    [("text", .str t.text), ("codes", .arr [.ofNat t.glyph.code.toNat]), ("x", .num t.x), ("y", .num t.y),
      ("width", .num t.adjustedWidth), ("height", .num t.height), ("space_width", .num t.spaceWidth),
      ("font", .str t.glyph.font.name), ("font_resource", Json.ofOption (t.glyph.fontName.map .str)),
      ("size", .num t.glyph.sizeInPoints), ("dir", .int t.direction),
      ("render_mode", Interchange.nameIn TextRenderMode.names t.glyph.mode), ("text_matrix", t.matrix.toJson)]

/-- The heads of the columns of the lines for pieces of text. -/
def charColumns : String :=
  "\t".intercalate ["page", "text", "x", "y", "width", "height", "font", "size", "dir"]

def warning (page : Nat) (w : Warning) : Item where
  line := "page " ++ toString page ++ ": " ++ w.message
  entries :=
    [("code", .str w.code.label), ("description", .str w.description),
      ("operator", Json.ofOption (w.operator.map .str)),
      ("operator_index", Json.ofOption (w.operatorIndex.map .ofNat)), ("depth", .ofNat w.depth),
      ("resource", Json.ofOption (w.resource.map .str))]

end Listing

end PdfContent.CommandLine
