import PdfContent.Document.Basic
import PdfContent.Font.Basic
import PdfContent.Font.CMap
import PdfContent.Font.Encoding
import PdfContent.Font.Standard

/-!
# Fonts of a document

A simple font has one byte per code and an encoding; a composite font reads codes by a character map and
takes its widths by glyph number; the glyphs of a Type 3 font are content. Where a font says too little,
the metrics of a standard font of that name help out, and last a fixed width. An encoding or a glyph
number may overflow; the font then says where.
-/

namespace PdfContent

variable {K : Type} [Scalar K]

/-- Widths of glyph numbers: of some numbers in a row, one by one, or of a range, all the same. -/
inductive CidWidths (K : Type)
  | listed (first : Nat) (widths : List (Option K))
  | uniform (first last : Nat) (width : K)

namespace CidWidths

/-- The width that is given for a glyph number. A range covers no more than `2 ^ 16` numbers. -/
def width? (w : CidWidths K) (cid : Nat) : Option K :=
  match w with
  | .listed first widths => if first ≤ cid then (widths[cid - first]?).join else none
  | .uniform first last width =>
    if first ≤ cid ∧ cid ≤ last ∧ cid ≤ first + 0xFFFF then some width else none

/-- The width of a glyph number in a list in which later entries come before earlier ones. -/
def lookUp? (ws : List (CidWidths K)) (cid : Nat) : Option K := ws.reverse.findSome? fun w => w.width? cid

end CidWidths

namespace Document

variable (d : Document K)

/-- The entries of an array of widths. An element that starts no entry is passed over. -/
def cidWidths : List (Object K) → List (CidWidths K)
  | [] => []
  | first :: rest =>
    match (d.resolve first).number? with
    | none => cidWidths rest
    | some x =>
      match rest with
      | [] => []
      | second :: rest =>
        match d.resolve second with
        | .array widths =>
          .listed (natural32 x) (widths.map fun w => (d.resolve w).number?) :: cidWidths rest
        | last =>
          match rest with
          | [] => []
          | third :: rest =>
            match last.number?, (d.resolve third).number? with
            | some y, some width => .uniform (natural32 x) (natural32 y) width :: cidWidths rest
            | _, _ => cidWidths rest

/-- What a font descriptor says about the glyphs. -/
structure Descriptor (K : Type) where
  bbox : Option (BBox K) := none
  capHeight : Option K := none
  averageWidth : Option K := none
  missingWidth : Option K := none

/-- The descriptor of a font. Widths that are not positive and a height of zero say nothing. -/
def descriptor (font : ObjectEntries K) : Descriptor K :=
  match d.dictionary? font "FontDescriptor" with
  | none => {}
  | some entries =>
    let positive (key : String) : Option K := (d.number? entries key).filter fun x => 0 < x
    { bbox := d.box? entries "FontBBox"
      capHeight := (d.number? entries "CapHeight").filter fun x => !Scalar.same x 0
      averageWidth := positive "AvgWidth"
      missingWidth := positive "MissingWidth" }

/-- The elements of an array of differences; numbers below zero are passed over. -/
def differences (items : List (Object K)) : List Difference :=
  items.filterMap fun item =>
    match (d.resolve item).number? with
    | some x => if 0 ≤ x then some (.code (UInt32.ofNat (natural32 x))) else none
    | none => (d.resolve item).name?.map Difference.name

/-- The encoding of a font whose codes are single bytes. -/
def encoding (font : ObjectEntries K) (base : BaseEncoding) : Except Overflow SimpleEncoding :=
  match d.entry? font "Encoding" with
  | some (.name bytes) => .ok (.ofBase ((BaseEncoding.ofName? (Text.decodeUtf8 bytes)).getD base))
  | some (.dictionary entries) =>
    let named := (d.name? entries "BaseEncoding").bind BaseEncoding.ofName?
    (SimpleEncoding.ofBase (named.getD base)).applyDifferences
      (d.differences (((d.entry? entries "Differences").bind Object.array?).getD []))
  | _ => .ok (.ofBase base)

/-- What a font overflows by that is not there without an encoding. -/
def encodingOverflow? (encoding : Except Overflow SimpleEncoding) : FontRequest → Option Overflow
  | .selection => Overflow.of? encoding
  | _ => none

variable [Text.Decoder]

/-- The map from codes to text. One that cannot be read is left out. -/
def textMap? (font : ObjectEntries K) : Option CMap := do
  let stream ← (← d.entry? font "ToUnicode").stream?
  let data ← (d.content stream).toOption
  (CMap.parse K data).toOption

/-- The character map of a composite font; codes are glyph numbers where it cannot be had. -/
def codeMap (font : ObjectEntries K) : CMap :=
  let found : Option CMap := do
    match ← d.entry? font "Encoding" with
    | .name bytes => CMap.predefined? (Text.decodeUtf8 bytes)
    | .stream entries data => (CMap.parse K (← (d.content ⟨entries, data⟩).toOption)).toOption
    | _ => none
  found.getD (.ofIdentity false)

/-- The mean of the numbers above zero. -/
def meanPositive? (xs : List K) : Option K :=
  match xs.filter fun x => 0 < x with
  | [] => none
  | ys => some (ys.foldl (· + ·) 0 / Scalar.ofNat ys.length)

/-- Widths by code, from a first code on. -/
structure CodeWidths (K : Type) where
  first : Nat
  widths : List K
  missing : Option K

def codeWidths (font : ObjectEntries K) (missing : Option K) : CodeWidths K where
  first := ((d.number? font "FirstChar").map natural32).getD 0
  widths := (d.numbers? font "Widths").getD []
  missing

omit [Scalar K] in
/-- The width that is listed for a code, or the one for codes that are not listed. -/
def CodeWidths.width? (w : CodeWidths K) (code : Nat) : Option K :=
  (if w.first ≤ code then w.widths[code - w.first]? else none).or w.missing

/-- The text of a code by a font's own map, else by what else is known about the code. -/
def textOf? (map : Option CMap) (otherwise : UInt32 → Option String) (code : UInt32) : Option String :=
  (map.bind fun m => m.text? code).or (otherwise code)

/-- A code of one byte. -/
def byte? (code : UInt32) : Option UInt8 := if code < 256 then some code.toUInt8 else none

/-- The width of the code for a space, if it is above zero. -/
def widthOfSpace? (width : UInt32 → K) (code : Option UInt32) : Option K :=
  (code.map width).filter fun x => 0 < x

/-- The code for a space of a font whose codes are single bytes. -/
def byteForSpace (map : Option CMap) : UInt32 := (map.bind fun m => m.codeFor? " ").getD 32

def simpleFont (font : ObjectEntries K) (name subtype : String) (map : Option CMap) :
    Font K (ObjectEntries K) :=
  let standard := StandardFont.ofName? name
  let about := d.descriptor font
  let widths := d.codeWidths font about.missingWidth
  let encoding := d.encoding font (if subtype == "TrueType" then .winAnsi else .standard)
  let encoding? := encoding.toOption
  let width (code : UInt32) : K :=
    match widths.width? code.toNat, standard with
    | some w, _ => w
    | none, some metrics => ((metrics.width? code.toNat).map Scalar.ofNat).getD 0
    | none, none => if widths.widths.isEmpty then Font.fallbackWidth else 0
  { Font.ofWidth name .simple width with
    bbox := about.bbox.or (standard.map StandardFont.bbox)
    capHeight := about.capHeight.or (standard.bind fun m => m.capHeight.map Scalar.ofNat)
    averageWidth := (about.averageWidth.or (meanPositive? widths.widths)).or
      (standard.map StandardFont.averageWidth)
    spaceWidth := widthOfSpace? width (some (byteForSpace map))
    text? := textOf? map fun code => do (← encoding?).text? (← byte? code)
    glyphName? := fun code => do (← encoding?).glyphName? (← byte? code)
    overflow? := encodingOverflow? encoding }

/-- A font with codes of several bytes; none without a descendant font. -/
def compositeFont? (font : ObjectEntries K) (name : String) (map : Option CMap) :
    Option (Font K (ObjectEntries K)) := do
  let descendants ← d.array? font "DescendantFonts"
  let descendant ← (← descendants[0]?).dictionary?
  let codes := d.codeMap font
  let standardWidth := (d.number? descendant "DW").getD (Scalar.ofInt 1000)
  let widths := d.cidWidths (((d.entry? descendant "W").bind Object.array?).getD [])
  let about := d.descriptor descendant
  let width (code : UInt32) : K :=
    ((codes.toCid code).toOption.bind fun cid => CidWidths.lookUp? widths cid.toNat).getD standardWidth
  let space := map.bind fun m => m.codeFor? " "
  return { Font.ofWidth name .composite width with
    readCode := codes.readCode
    bbox := about.bbox
    capHeight := about.capHeight
    averageWidth := some (about.averageWidth.getD standardWidth)
    spaceWidth := widthOfSpace? width space
    text? := textOf? map codes.text?
    vertical := codes.vertical
    overflow?
      | .selection => none
      | .width code => Overflow.of? (codes.toCid code)
      | .spaceWidth => space.bind fun code => Overflow.of? (codes.toCid code) }

/-- The contents of glyph procedures by glyph name. One that cannot be read is left out. -/
def procedures (entries : ObjectEntries K) : List (String × Bytes) :=
  entries.filterMap fun e => do
    let stream ← (d.resolve e.2).stream?
    let content ← (d.content stream).toOption
    return (Text.decodeUtf8 e.1, content)

/-- A font whose glyphs are content; none without a matrix or without procedures. -/
def type3Font? (font : ObjectEntries K) (name : String) (map : Option CMap) :
    Option (Font K (ObjectEntries K)) := do
  let matrix ← d.matrix? font "FontMatrix"
  let procedures := d.procedures (← d.dictionary? font "CharProcs")
  let about := d.descriptor font
  let widths := d.codeWidths font about.missingWidth
  let encoding := d.encoding font .standard
  let encoding? := encoding.toOption
  let glyphName (code : UInt32) : Option String := do (← encoding?).glyphName? (← byte? code)
  let width (code : UInt32) : K := (widths.width? code.toNat).getD 0
  let scope := d.dictionary? font "Resources"
  let plain : Font K (ObjectEntries K) := .ofWidth name .type3 width
  return { plain with
    matrix
    bbox := d.box? font "FontBBox"
    capHeight := about.capHeight
    averageWidth := about.averageWidth.or (meanPositive? widths.widths)
    spaceWidth := widthOfSpace? width (some (byteForSpace map))
    text? := textOf? map fun code => do (← encoding?).text? (← byte? code)
    glyphName? := glyphName
    overflow? := encodingOverflow? encoding
    procedure? code := do
      let glyph ← glyphName code
      let entry ← procedures.reverse.find? fun e => e.1 == glyph
      return ⟨entry.2, scope⟩ }

/-- The font that a dictionary describes. -/
def fontOf? (font : ObjectEntries K) : Option (Font K (ObjectEntries K)) :=
  let subtype := (d.name? font "Subtype").getD ""
  let name := ((d.name? font "BaseFont").or (d.name? font "Name")).getD subtype
  let map := d.textMap? font
  match subtype with
  | "Type0" => d.compositeFont? font name map
  | "Type3" => d.type3Font? font name map
  | _ => some (d.simpleFont font name subtype map)

/-- The font that an object is or refers to. A reference identifies the font. -/
def font? (o : Object K) : Option (Font K (ObjectEntries K)) := do
  let font ← d.fontOf? (← (d.resolve o).dictionary?)
  return { font with source := o.reference?.map fun id => (id.number, id.generation) }

end Document

end PdfContent
