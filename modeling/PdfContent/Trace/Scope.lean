import PdfContent.Layout.PlacedText
import PdfContent.Diagnostics
import PdfContent.Trace.Paint

/-!
# Traces: resources as input

Fonts, forms, patterns and catalogs of resources can be given as JSON. A catalog may lie inside a form, a
pattern cell or a glyph procedure of another one, so reading numbers the catalogs: scopes are natural
numbers, and scope zero is empty.
-/

namespace PdfContent.Trace

/-- The catalogs read so far; a scope is an index. -/
abbrev Catalogs := Array (Catalog Float Nat)

/-- Reads something that may bring catalogs with it. -/
abbrev Reading := StateM Catalogs

/-- Values by character code, the codes as decimal keys. -/
def byCode {α : Type} (entries : List (String × α)) (code : UInt32) : Option α :=
  (entries.find? fun e => (e.1.toNat?.getD 0) == code.toNat).map Prod.snd

/-- A font of which everything is given. Codes of more than one byte are big-endian numbers. -/
def describedFont (j : Json) (procedures : List (String × GlyphProcedure Nat)) : Font Float Nat :=
  let kind : FontKind := match (j.field "kind").text with
    | "composite" => .composite
    | "Type3" => .type3
    | _ => .simple
  let widths := (j.field "widths").entries.map fun e => (e.1, toNumber e.2)
  let texts := (j.field "unicode").entries.map fun e => (e.1, e.2.text)
  let names := (j.field "glyph_names").entries.map fun e => (e.1, e.2.text)
  let length := ((j.field "code_len").int?.getD 1).toNat
  let font : Font Float Nat := .ofWidth ((j.field "name").text?.getD "JsonFont") kind fun code =>
    (byCode widths code).getD (toNumber (j.field "default_width"))
  { font with
    readCode := if length == 1 then Font.readByte else fun s =>
      ((s.take length).foldl (fun n b => n * 256 + b.toUInt32) 0, length)
    matrix := ((j.present? "matrix").map toMatrix).getD font.matrix
    bbox := (j.present? "bbox").map toBox
    capHeight := toNumber? (j.field "cap_height")
    spaceWidth := toNumber? (j.field "space_width")
    averageWidth := toNumber? (j.field "average_width")
    text? := byCode texts
    glyphName? := byCode names
    vertical := (j.field "vertical").isTrue
    procedure? := byCode procedures }

/-- The parameters that are given, apart from the font. -/
def plainParameters (j : Json) : StateParameters Float Nat where
  lineWidth := toNumber? (j.field "line_width")
  lineCap := (j.field "line_cap").int?.bind LineCap.ofInt?
  lineJoin := (j.field "line_join").int?.bind LineJoin.ofInt?
  miterLimit := toNumber? (j.field "miter_limit")
  dash := (j.present? "dash").map toDash
  renderingIntent := (j.field "rendering_intent").text?.map RenderingIntent.ofName
  flatness := toNumber? (j.field "flatness")
  smoothness := toNumber? (j.field "smoothness")
  strokeAdjustment := (j.field "stroke_adjustment").bool?
  blendMode := (j.field "blend_mode").text?.bind BlendMode.ofName?
  softMask := (j.get? "soft_mask").map fun v => if v.isNull then none else some (toSoftMask v)
  strokeAlpha := toNumber? (j.field "stroke_alpha")
  fillAlpha := toNumber? (j.field "fill_alpha")
  alphaIsShape := (j.field "alpha_is_shape").bool?
  textKnockout := (j.field "text_knockout").bool?
  strokeOverprint := (j.field "stroke_overprint").bool?
  fillOverprint := (j.field "fill_overprint").bool?
  overprintMode := (j.field "overprint_mode").int?

/-- A form whose scope has been read. -/
def describedForm (j : Json) (scope : Option Nat) : Form Float Nat where
  content := toBytes (j.field "content")
  matrix := toMatrix (j.field "matrix")
  bbox := toBox (j.field "bbox")
  scope
  group := (j.present? "group").map toGroup

/-- A tiling pattern whose scope has been read. -/
def describedTiling (j : Json) (scope : Option Nat) : TilingPattern Float Nat where
  content := toBytes (j.field "content")
  matrix := toMatrix (j.field "matrix")
  bbox := toBox (j.field "bbox")
  xStep := (toNumber? (j.field "x_step")).getD 1
  yStep := (toNumber? (j.field "y_step")).getD 1
  paintType := (j.field "paint_type").int?.getD 1
  tilingType := (j.field "tiling_type").int?.getD 1
  scope

mutual

/-- The scope that a catalog gets; none where there is no catalog. -/
def toScopeWithin : (bound : Nat) → Json → Reading (Option Nat)
  | 0, _ => return none
  | bound + 1, j => do
    if j.isNull then return none
    let fonts ← (j.field "fonts").entries.mapM fun e => do return (e.1, ← toFontWithin bound e.2)
    let xobjects ← (j.field "xobjects").entries.mapM fun e => do return (e.1, ← toXObjectWithin bound e.2)
    let stateParameters ← (j.field "ext_gstates").entries.mapM fun e => do
      return (e.1, ← toParametersWithin bound e.2)
    let patterns ← (j.field "patterns").entries.mapM fun e => do return (e.1, ← toPatternWithin bound e.2)
    let colorSpaces := (j.field "color_spaces").entries.map fun e => (e.1, toColorSpace e.2)
    let shadings := (j.field "shadings").entries.map fun e => (e.1, toShading e.2)
    let properties := (j.field "properties").entries.map fun e => (e.1, toDictionary e.2)
    let catalogs ← get
    set (catalogs.push { fonts, colorSpaces, xobjects, stateParameters, shadings, patterns, properties })
    return some catalogs.size

def toFontWithin : (bound : Nat) → Json → Reading (Font Float Nat)
  | _, .str "fallback" => return .fallback
  | _, .str _ => return .ofWidth "Plain" .simple fun _ => 0
  | 0, _ => return .fallback
  | bound + 1, j => do
    let procedures ← (j.field "glyphs").entries.mapM fun e => do
      let scope ← toScopeWithin bound (e.2.field "resources")
      return (e.1, (⟨toBytes (e.2.field "content"), scope⟩ : GlyphProcedure Nat))
    return describedFont j procedures

def toParametersWithin : (bound : Nat) → Json → Reading (StateParameters Float Nat)
  | 0, _ => return {}
  | bound + 1, j => do
    match j.present? "font" with
    | none => return plainParameters j
    | some v => do
      let font ← toFontWithin bound (v.item 0)
      return { plainParameters j with font := some (font, toNumber (v.item 1)) }

def toXObjectWithin : (bound : Nat) → Json → Reading (XObject Float Nat)
  | 0, _ => return .postScript
  | bound + 1, j => do
    match j.present? "form", j.present? "image" with
    | some f, _ => return .form (describedForm f (← toScopeWithin bound (f.field "resources")))
    | none, some i => return .image (toImage i)
    | none, none => return .postScript

def toPatternWithin : (bound : Nat) → Json → Reading (Pattern Float Nat)
  | 0, _ => return .shading (toShading .null) .identity none
  | bound + 1, j => do
    match j.present? "tiling" with
    | some v => return .tiling (describedTiling v (← toScopeWithin bound (v.field "resources")))
    | none => do
      let v := j.field "shading"
      let parameters ← match v.present? "ext_gstate" with
        | some p => some <$> toParametersWithin bound p
        | none => pure none
      return .shading (toShading (v.field "shading")) (toMatrix (v.field "matrix")) parameters

end

/-- The scope of a catalog; the empty one where there is no catalog. -/
def toScope (j : Json) : Reading Nat := do
  return (← toScopeWithin (j.depth + 1) j).getD 0

def toFont (j : Json) : Reading (Font Float Nat) := toFontWithin (j.depth + 1) j

def toParameters (j : Json) : Reading (StateParameters Float Nat) := toParametersWithin (j.depth + 1) j

def toForm (j : Json) : Reading (Form Float Nat) := do
  return describedForm j (← toScopeWithin j.depth (j.field "resources"))

def toTiling (j : Json) : Reading (TilingPattern Float Nat) := do
  return describedTiling j (← toScopeWithin j.depth (j.field "resources"))

/-- What has been read, and the resolver for its scopes. -/
def Reading.finish {α : Type} (r : Reading α) : α × Resolver Float Nat :=
  let (a, catalogs) := r.run #[{}]
  (a, .ofCatalogs fun scope => catalogs.getD scope {})

/-- What a run does; entries that are not given are as usual. -/
def toOptions (j : Json) : Options where
  maxDepth := ((j.present? "max_depth").map Json.natural).getD Options.standard.maxDepth
  collectWarnings := (j.field "collect_warnings").bool?.getD Options.standard.collectWarnings
  expandPatterns := (j.field "expand_patterns").bool?.getD Options.standard.expandPatterns
  runGlyphProcedures := (j.field "type3").bool?.getD Options.standard.runGlyphProcedures

def toFrame (j : Json) : PageFrame Float := .ofBox (toBox (j.field "bbox")) (j.field "rotation").integer

end PdfContent.Trace
