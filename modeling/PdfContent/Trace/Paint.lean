import PdfContent.Interchange
import PdfContent.Resources
import PdfContent.Trace.Values

/-!
# Traces: paint parameters and resources

Parameters are written by the names of the page description; an entry of an extended graphics state
appears only where it is given. The content of forms and pattern cells is written, but of their resources
only whether they have any.
-/

namespace PdfContent.Trace

def fillRule (rule : FillRule) : Json := .str rule.label

def toFillRule (j : Json) : FillRule := if j.text == "evenodd" then .evenOdd else .nonZero

def color : Color Float → Json
  | .gray g => .obj [("Gray", number g)]
  | .rgb r g b => .obj [("Rgb", list number [r, g, b])]
  | .cmyk c m y k => .obj [("Cmyk", list number [c, m, y, k])]
  | .other cs => .obj [("Other", list number cs)]
  | .pattern name cs =>
    .obj [("Pattern", .obj [("name", orNull .str name), ("components", list number cs)])]

def toColor : Json → Color Float
  | .obj [("Gray", v)] => .gray (toSingle v)
  | .obj [("Rgb", v)] => .rgb (toSingle (v.item 0)) (toSingle (v.item 1)) (toSingle (v.item 2))
  | .obj [("Cmyk", v)] =>
    .cmyk (toSingle (v.item 0)) (toSingle (v.item 1)) (toSingle (v.item 2)) (toSingle (v.item 3))
  | .obj [("Other", v)] => .other (v.items.map toSingle)
  | .obj [("Pattern", v)] => .pattern (v.field "name").text? ((v.field "components").items.map toSingle)
  | _ => .black

/-- The spaces that are written by their names. -/
def plainSpaces : List (ColorSpace × String) :=
  [(.deviceGray, "DeviceGray"), (.deviceRGB, "DeviceRGB"), (.deviceCMYK, "DeviceCMYK"),
    (.calGray, "CalGray"), (.calRGB, "CalRGB"), (.lab, "Lab")]

def colorSpace : ColorSpace → Json
  | .iccBased n alternate => .obj [("ICCBased", .obj [("n", .ofNat n), ("alternate", colorSpace alternate)])]
  | .indexed base high table =>
    .obj [("Indexed", .obj [("base", colorSpace base), ("hival", .ofNat high), ("lookup", bytes table)])]
  | .separation colorant alternate =>
    .obj [("Separation", .obj [("colorant", .str colorant), ("alternate", colorSpace alternate)])]
  | .deviceN colorants alternate =>
    .obj [("DeviceN", .obj [("colorants", Json.strings colorants), ("alternate", colorSpace alternate)])]
  | .pattern none => .obj [("Pattern", .null)]
  | .pattern (some base) => .obj [("Pattern", colorSpace base)]
  | space => Interchange.nameIn plainSpaces space

/-- A colour space that is nested less deeply than the bound. -/
def toColorSpaceWithin : (bound : Nat) → Json → ColorSpace
  | 0, _ => .deviceGray
  | bound + 1, j =>
    let inner (v : Json) (key : String) : ColorSpace := toColorSpaceWithin bound (v.field key)
    match j with
    | .obj [("ICCBased", v)] => .iccBased (v.field "n").natural (inner v "alternate")
    | .obj [("Indexed", v)] =>
      .indexed (inner v "base") (v.field "hival").natural (toBytes (v.field "lookup"))
    | .obj [("Separation", v)] => .separation (v.field "colorant").text (inner v "alternate")
    | .obj [("DeviceN", v)] => .deviceN ((v.field "colorants").items.map Json.text) (inner v "alternate")
    | .obj [("Pattern", .null)] => .pattern none
    | .obj [("Pattern", v)] => .pattern (some (toColorSpaceWithin bound v))
    | _ => (Interchange.ofNames? plainSpaces j).getD .deviceGray

def toColorSpace (j : Json) : ColorSpace := toColorSpaceWithin (j.depth + 1) j

def lineCap : LineCap → Json := Interchange.nameIn LineCap.names

def lineJoin : LineJoin → Json := Interchange.nameIn LineJoin.names

def blendMode (m : BlendMode) : Json := .str m.name

def dash (d : DashPattern Float) : Json :=
  .obj [("array", list number d.lengths), ("phase", number d.phase), ("solid", .bool d.isSolid)]

def toDash (j : Json) : DashPattern Float :=
  ⟨(j.field "array").items.map toNumber, toNumber (j.field "phase")⟩

def softMask (m : SoftMask Float) : Json :=
  .obj [("subtype", .str m.subtype), ("backdrop", orNull (list number) m.backdrop)]

def toSoftMask (j : Json) : SoftMask Float :=
  ⟨(j.field "subtype").text, (j.present? "backdrop").map fun b => b.items.map toSingle⟩

/-- The regions of a clip; `null` for none. -/
def clip (c : Clip Float) : Json :=
  if c.regions.isEmpty then .null
  else list (fun r => .obj [("path", path r.path), ("rule", fillRule r.rule)]) c.regions

def group (g : TransparencyGroup) : Json :=
  .obj [("isolated", .bool g.isolated), ("knockout", .bool g.knockout),
    ("color_space", orNull colorSpace g.colorSpace)]

def toGroup (j : Json) : TransparencyGroup :=
  ⟨(j.field "isolated").isTrue, (j.field "knockout").isTrue, (j.present? "color_space").map toColorSpace⟩

def shading (s : Shading Float) : Json :=
  .obj [("type", .int s.kind), ("color_space", orNull colorSpace s.colorSpace),
    ("bbox", orNull box s.bbox), ("anti_alias", .bool s.antiAlias)]

def toShading (j : Json) : Shading Float :=
  ⟨(j.field "type").integer, (j.present? "color_space").map toColorSpace, (j.present? "bbox").map toBox,
    (j.field "anti_alias").isTrue⟩

def image (i : Image) : Json :=
  .obj [("width", .ofNat i.width), ("height", .ofNat i.height), ("bpc", orNull .ofNat i.bitsPerComponent),
    ("color_space", orNull colorSpace i.colorSpace), ("stencil", .bool i.isStencil),
    ("filters", Json.strings i.filters), ("decoded", .bool i.decoded), ("soft_mask", .bool i.hasSoftMask),
    ("data", bytes i.data)]

/-- An image with its samples at hand. -/
def toImage (j : Json) : Image where
  width := (j.field "width").natural
  height := (j.field "height").natural
  bitsPerComponent := (j.present? "bpc").map Json.natural
  colorSpace := (j.present? "color_space").map toColorSpace
  isStencil := (j.field "stencil").isTrue
  filters := []
  decoded := true
  hasSoftMask := (j.field "soft_mask").isTrue
  data := toBytes (j.field "data")

variable {σ : Type}

def form (f : Form Float σ) : Json :=
  .obj [("content", bytes f.content), ("matrix", matrix f.matrix), ("bbox", box f.bbox),
    ("has_resources", .bool f.scope.isSome), ("group", orNull group f.group)]

def parameters (p : StateParameters Float σ) : Json :=
  let all : List (String × Option Json) :=
    [("line_width", p.lineWidth.map number), ("line_cap", p.lineCap.map lineCap),
      ("line_join", p.lineJoin.map lineJoin), ("miter_limit", p.miterLimit.map number),
      ("dash", p.dash.map dash), ("rendering_intent", p.renderingIntent.map RenderingIntent.toJson),
      ("flatness", p.flatness.map number), ("smoothness", p.smoothness.map number),
      ("stroke_adjustment", p.strokeAdjustment.map .bool), ("blend_mode", p.blendMode.map blendMode),
      ("soft_mask", p.softMask.map (orNull softMask)), ("stroke_alpha", p.strokeAlpha.map number),
      ("fill_alpha", p.fillAlpha.map number), ("alpha_is_shape", p.alphaIsShape.map .bool),
      ("text_knockout", p.textKnockout.map .bool), ("stroke_overprint", p.strokeOverprint.map .bool),
      ("fill_overprint", p.fillOverprint.map .bool), ("overprint_mode", p.overprintMode.map .int),
      ("font", p.font.map fun f => .arr [.str f.1.name, number f.2])]
  .obj (all.filterMap fun e => e.2.map fun v => (e.1, v))

def pattern : Pattern Float σ → Json
  | .tiling p =>
    .obj [("tiling", .obj [("content", bytes p.content), ("matrix", matrix p.matrix), ("bbox", box p.bbox),
      ("x_step", number p.xStep), ("y_step", number p.yStep), ("paint_type", .int p.paintType),
      ("tiling_type", .int p.tilingType), ("uncolored", .bool p.isUncolored),
      ("has_resources", .bool p.scope.isSome)])]
  | .shading s m p =>
    .obj [("shading", .obj [("shading", shading s), ("matrix", matrix m),
      ("ext_gstate", orNull parameters p)])]

def xobject : XObject Float σ → Json
  | .form f => .obj [("form", form f)]
  | .image i => .obj [("image", image i)]
  | .postScript => .str "PostScript"

/-- A font with the glyphs of some codes. -/
def font (f : Font Float σ) (codes : List UInt32) : List (String × Json) :=
  [("name", .str f.name), ("kind", .str f.kind.label), ("matrix", matrix f.matrix),
    ("bbox", orNull box f.bbox), ("cap_height", orNull number f.capHeight),
    ("space_width", orNull number f.spaceWidth), ("average_width", orNull number f.averageWidth),
    ("vertical", .bool f.vertical), ("codes", list glyph codes)]
where
  glyph (code : UInt32) : Json :=
    .obj [("code", .ofNat code.toNat), ("width", number (f.width code)),
      ("unicode", orNull .str (f.text? code)), ("glyph_name", orNull .str (f.glyphName? code)),
      ("proc", orNull procedure (f.procedure? code))]
  procedure (p : GlyphProcedure σ) : Json :=
    .obj [("content", bytes p.content), ("has_resources", .bool p.scope.isSome)]

end PdfContent.Trace
