import PdfContent.Document.ColorSpace
import PdfContent.Document.Font
import PdfContent.Resources

/-!
# Resources of a document

The scope of a stream in a document is a dictionary of resources. `Document.resolver` finds in it what
the interpreter asks for by name; whatever cannot be read counts as missing.
-/

namespace PdfContent.Document

variable {K : Type} [Scalar K] [Text.Decoder] (d : Document K)

/-- The resources that belong to a stream or a font itself. -/
def ownScope (owner : ObjectEntries K) : Option (ObjectEntries K) := d.dictionary? owner "Resources"

/-- The colour space of an entry. -/
def entrySpace? (scope entries : ObjectEntries K) (key : String) : Option ColorSpace :=
  (entries.at? key).bind (d.colorSpace? scope)

def group? (scope entries : ObjectEntries K) : Option TransparencyGroup := do
  let group ← d.dictionary? entries "Group"
  if d.name? group "S" == some "Transparency" then
    return ⟨d.flag group "I", d.flag group "K", d.entrySpace? scope group "CS"⟩
  else none

/-- The form of a stream; none without a box or if the content cannot be decoded. -/
def form? (scope : ObjectEntries K) (stream : ObjectStream K) : Option (Form K (ObjectEntries K)) := do
  let bbox ← d.box? stream.entries "BBox"
  let content ← (d.content stream).toOption
  return {
    content
    matrix := (d.matrix? stream.entries "Matrix").getD .identity
    bbox
    scope := d.ownScope stream.entries
    group := d.group? scope stream.entries }

/-- The filters whose data is left to the users of images. -/
def imageFilters : List String := ["DCTDecode", "DCT", "JPXDecode", "CCITTFaxDecode", "CCF", "JBIG2Decode"]

/-- The names of the filters of a stream, references followed. -/
def filterTexts (entries : ObjectEntries K) : List String :=
  match d.entry? entries "Filter" with
  | some (.array items) => items.filterMap fun item => (d.resolve item).name?
  | some o => o.name?.toList
  | none => []

/-- The image of a stream. Data that cannot be decoded stays as it is. -/
def image (scope : ObjectEntries K) (stream : ObjectStream K) : Image :=
  let entries := stream.entries
  let isStencil := d.flag entries "ImageMask"
  let filters := d.filterTexts entries
  let decoded : Option Bytes :=
    if filters.isEmpty then some stream.data
    else if filters.any imageFilters.contains then none
    else (d.decode stream).toOption
  { width := ((d.number? entries "Width").map natural32).getD 0
    height := ((d.number? entries "Height").map natural32).getD 0
    bitsPerComponent := if isStencil then some 1 else (d.number? entries "BitsPerComponent").map natural32
    colorSpace := d.entrySpace? scope entries "ColorSpace"
    isStencil
    filters
    decoded := decoded.isSome
    hasSoftMask := (entries.at? "SMask").isSome
    data := decoded.getD stream.data }

def xobject? (scope : ObjectEntries K) (o : Object K) : Option (XObject K (ObjectEntries K)) := do
  let stream ← (d.resolve o).stream?
  match ← d.name? stream.entries "Subtype" with
  | "Form" => (d.form? scope stream).map .form
  | "Image" => return .image (d.image scope stream)
  | "PS" => return .postScript
  | _ => none

/-- The shading of a dictionary or a stream. Its type stands there directly. -/
def shading? (scope : ObjectEntries K) (o : Object K) : Option (Shading K) := do
  let entries : ObjectEntries K ← match d.resolve o with
    | .dictionary entries => some entries
    | .stream entries _ => some entries
    | _ => none
  let kind ← (← entries.at? "ShadingType").integer?
  return ⟨kind, d.entrySpace? scope entries "ColorSpace", d.box? entries "BBox", d.flag entries "AntiAlias"⟩

def dash? (entries : ObjectEntries K) : Option (DashPattern K) := do
  let parts ← d.array? entries "D"
  let lengths ← (← parts[0]?).array?
  let phase ← (← parts[1]?).number?
  return ⟨lengths.filterMap fun o => (d.resolve o).number?, phase⟩

/-- The first mode that is known among the names of an entry. -/
def blendMode? (entries : ObjectEntries K) : Option BlendMode :=
  match d.entry? entries "BM" with
  | some (.array modes) => modes.findSome? fun o => (d.resolve o).name?.bind BlendMode.ofName?
  | some o => o.name?.bind BlendMode.ofName?
  | none => none

/-- The soft mask of an entry; an entry that is no dictionary removes the mask. -/
def softMask? (entries : ObjectEntries K) : Option (Option (SoftMask K)) :=
  (d.entry? entries "SMask").map fun o =>
    o.dictionary?.map fun mask =>
      { subtype := (d.name? mask "S").getD "Luminosity"
        backdrop := (d.array? mask "BC").map fun items =>
          items.filterMap fun o => o.number?.map Scalar.single }

def parametersFont? (entries : ObjectEntries K) : Option (Font K (ObjectEntries K) × K) := do
  let parts ← (← d.entry? entries "Font").array?
  let font ← d.font? (← parts[0]?)
  return (font, ← (d.resolve (← parts[1]?)).number?)

/-- The parameters of an extended graphics state. -/
def parameters (entries : ObjectEntries K) : StateParameters K (ObjectEntries K) where
  lineWidth := d.number? entries "LW"
  lineCap := (d.number? entries "LC").bind fun x => LineCap.ofInt? (integer64 x)
  lineJoin := (d.number? entries "LJ").bind fun x => LineJoin.ofInt? (integer64 x)
  miterLimit := d.number? entries "ML"
  dash := d.dash? entries
  renderingIntent := (d.name? entries "RI").map RenderingIntent.ofName
  flatness := d.number? entries "FL"
  smoothness := d.number? entries "SM"
  strokeAdjustment := (d.entry? entries "SA").bind Object.boolean?
  blendMode := d.blendMode? entries
  softMask := d.softMask? entries
  strokeAlpha := d.number? entries "CA"
  fillAlpha := d.number? entries "ca"
  alphaIsShape := (d.entry? entries "AIS").bind Object.boolean?
  textKnockout := (d.entry? entries "TK").bind Object.boolean?
  strokeOverprint := (d.entry? entries "OP").bind Object.boolean?
  fillOverprint := ((d.entry? entries "op").bind Object.boolean?).or ((d.entry? entries "OP").bind Object.boolean?)
  overprintMode := (d.number? entries "OPM").map integer64
  font := d.parametersFont? entries

def tiling? (stream : ObjectStream K) : Option (TilingPattern K (ObjectEntries K)) := do
  let entries := stream.entries
  if (← (← entries.at? "PatternType").integer?) != 1 then none
  let content ← (d.content stream).toOption
  let bbox ← d.box? entries "BBox"
  let xStep ← d.number? entries "XStep"
  let yStep ← d.number? entries "YStep"
  return {
    content
    matrix := (d.matrix? entries "Matrix").getD .identity
    bbox
    xStep
    yStep
    paintType := ((d.number? entries "PaintType").map integer64).getD 1
    tilingType := ((d.number? entries "TilingType").map integer64).getD 1
    scope := d.ownScope entries }

/-- The pattern of an object: a stream is a tiling pattern, a dictionary a shading. -/
def pattern? (scope : ObjectEntries K) (o : Object K) : Option (Pattern K (ObjectEntries K)) :=
  match d.resolve o with
  | .stream entries data => (d.tiling? ⟨entries, data⟩).map .tiling
  | .dictionary entries => do
    let shading ← d.shading? scope (← ObjectEntries.at? entries "Shading")
    return .shading shading ((d.matrix? entries "Matrix").getD .identity)
      ((d.dictionary? entries "ExtGState").map d.parameters)
  | _ => none

/-- The resources that the scopes of a document name. -/
def resolver : Resolver K (ObjectEntries K) where
  font scope name := (d.resource? scope "Font" name).bind d.font?
  colorSpace scope name := d.namedColorSpace? scope name
  xobject scope name := (d.resource? scope "XObject" name).bind (d.xobject? scope)
  stateParameters scope name :=
    ((d.resource? scope "ExtGState" name).bind fun o => (d.resolve o).dictionary?).map d.parameters
  shading scope name := (d.resource? scope "Shading" name).bind (d.shading? scope)
  pattern scope name := (d.resource? scope "Pattern" name).bind (d.pattern? scope)
  properties scope name := (d.resource? scope "Properties" name).bind fun o => (d.toOperand o).dictionary?

end PdfContent.Document
