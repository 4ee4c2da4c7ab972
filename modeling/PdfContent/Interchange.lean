import PdfContent.Json
import PdfContent.Diagnostics
import PdfContent.Paint.Color
import PdfContent.Paint.Style
import PdfContent.Scalar.Binary64

/-!
# Values as JSON

The forms in which geometry, paint parameters and warnings are exchanged as JSON. A record is an object
with one entry per field, or an array of all its fields in order; entries with other keys do not matter.
A choice without content is its name, or an object that gives the name `null`; any other choice is an
object with one entry. A number that is not finite is written as `null`, which is not read as a number.
-/

namespace PdfContent.Interchange

/-- The fields of a record in order; one that is missing from an object counts as `null`. -/
def record? (names : List String) : Json → Option (List Json)
  | .arr items => if items.length = names.length then some items else none
  | .obj entries => some (names.map fun name => ((Json.obj entries).get? name).getD .null)
  | _ => none

/-- The name of a choice without content. -/
def plainChoice? : Json → Option String
  | .str name => some name
  | .obj [(name, .null)] => some name
  | _ => none

/-- The name and content of a choice. -/
def choice? : Json → Option (String × Json)
  | .obj [(name, content)] => some (name, content)
  | _ => none

def number? : Json → Option Float
  | .int i => some (Float.ofInt i)
  | .num x => some x
  | _ => none

/-- A number rounded to single precision. -/
def single? : Json → Option Float
  | .int i => some (Float32.ofInt i).toFloat
  | .num x => some x.toFloat32.toFloat
  | _ => none

def text? : Json → Option String
  | .str s => some s
  | _ => none

/-- A count of at most 64 bits. -/
def count? : Json → Option Nat
  | .int i => if 0 ≤ i ∧ i < 0x10000000000000000 then some i.toNat else none
  | _ => none

/-- A value that may be absent. -/
def optional? {α : Type} (read : Json → Option α) : Json → Option (Option α)
  | .null => some none
  | j => (read j).map some

def list? {α : Type} (read : Json → Option α) : Json → Option (List α)
  | .arr items => items.mapM read
  | _ => none

/-- The entry of a list of names. -/
def ofNames? {α : Type} (names : List (α × String)) (j : Json) : Option α := do
  let name ← plainChoice? j
  (names.find? fun entry => entry.2 == name).map Prod.fst

/-- The name of a value. -/
def nameIn {α : Type} [BEq α] (names : List (α × String)) (a : α) : Json :=
  .str (((names.find? fun entry => entry.1 == a).map Prod.snd).getD "")

end Interchange

open Interchange

def Point.toJson (p : Point Float) : Json := .obj [("x", .num p.x), ("y", .num p.y)]

def Point.ofJson? (j : Json) : Option (Point Float) := do
  match ← record? ["x", "y"] j with
  | [x, y] => return ⟨← number? x, ← number? y⟩
  | _ => none

def Matrix.toJson (m : Matrix Float) : Json :=
  .obj [("a", .num m.a), ("b", .num m.b), ("c", .num m.c), ("d", .num m.d), ("e", .num m.e),
    ("f", .num m.f)]

def Matrix.ofJson? (j : Json) : Option (Matrix Float) := do
  Matrix.ofList? (← (← record? ["a", "b", "c", "d", "e", "f"] j).mapM number?)

def BBox.toJson (b : BBox Float) : Json :=
  .obj [("x0", .num b.x0), ("y0", .num b.y0), ("x1", .num b.x1), ("y1", .num b.y1)]

/-- A box as it is given; its corners are not put in order. -/
def BBox.ofJson? (j : Json) : Option (BBox Float) := do
  match ← record? ["x0", "y0", "x1", "y1"] j with
  | [x0, y0, x1, y1] => return ⟨← number? x0, ← number? y0, ← number? x1, ← number? y1⟩
  | _ => none

namespace Segment

def toJson : Segment Float → Json
  | .moveTo p => .obj [("MoveTo", p.toJson)]
  | .lineTo p => .obj [("LineTo", p.toJson)]
  | .curveTo p q r => .obj [("CurveTo", .obj [("cp1", p.toJson), ("cp2", q.toJson), ("end", r.toJson)])]
  | .close => .str "ClosePath"

/-- The control points and the end of a curve, by name. -/
def curveOfJson? : Json → Option (Segment Float)
  | .obj entries => do
    match ← record? ["cp1", "cp2", "end"] (.obj entries) with
    | [p, q, r] => return .curveTo (← Point.ofJson? p) (← Point.ofJson? q) (← Point.ofJson? r)
    | _ => none
  | _ => none

def ofJson? (j : Json) : Option (Segment Float) :=
  if plainChoice? j == some "ClosePath" then some .close
  else do
    match ← choice? j with
    | ("MoveTo", p) => return .moveTo (← Point.ofJson? p)
    | ("LineTo", p) => return .lineTo (← Point.ofJson? p)
    | ("CurveTo", points) => curveOfJson? points
    | _ => none

end Segment

def Path.toJson (p : Path Float) : Json := .obj [("segments", .arr (p.segments.map Segment.toJson))]

def Path.ofJson? (j : Json) : Option (Path Float) := do
  match ← record? ["segments"] j with
  | [segments] => return ⟨← list? Segment.ofJson? segments⟩
  | _ => none

namespace Color

def toJson : Color Float → Json
  | .gray g => .obj [("Gray", .num g)]
  | .rgb r g b => .obj [("Rgb", .arr [.num r, .num g, .num b])]
  | .cmyk c m y k => .obj [("Cmyk", .arr [.num c, .num m, .num y, .num k])]
  | .other components => .obj [("Other", .arr (components.map .num))]
  | .pattern name components =>
    .obj [("Pattern", .obj [("name", Json.ofOption (name.map .str)),
      ("components", .arr (components.map .num))])]

def patternOfJson? : Json → Option (Color Float)
  | .obj entries => do
    match ← record? ["name", "components"] (.obj entries) with
    | [name, components] => return .pattern (← optional? text? name) (← list? single? components)
    | _ => none
  | _ => none

def ofJson? (j : Json) : Option (Color Float) := do
  match ← choice? j with
  | ("Gray", g) => return .gray (← single? g)
  | ("Rgb", .arr [r, g, b]) => return .rgb (← single? r) (← single? g) (← single? b)
  | ("Cmyk", .arr [c, m, y, k]) => return .cmyk (← single? c) (← single? m) (← single? y) (← single? k)
  | ("Other", components) => return .other (← list? single? components)
  | ("Pattern", parts) => patternOfJson? parts
  | _ => none

end Color

def FillRule.names : List (FillRule × String) := [(.nonZero, "NonZeroWinding"), (.evenOdd, "EvenOdd")]

def LineCap.names : List (LineCap × String) :=
  [(.butt, "Butt"), (.round, "Round"), (.projectingSquare, "ProjectingSquare")]

def LineJoin.names : List (LineJoin × String) := [(.miter, "Miter"), (.round, "Round"), (.bevel, "Bevel")]

def DashPattern.toJson (d : DashPattern Float) : Json :=
  .obj [("dash_array", .arr (d.lengths.map .num)), ("dash_phase", .num d.phase)]

def DashPattern.ofJson? (j : Json) : Option (DashPattern Float) := do
  match ← record? ["dash_array", "dash_phase"] j with
  | [lengths, phase] => return ⟨← list? number? lengths, ← number? phase⟩
  | _ => none

namespace RenderingIntent

def names : List (RenderingIntent × String) :=
  [(.absoluteColorimetric, "AbsoluteColorimetric"), (.relativeColorimetric, "RelativeColorimetric"),
    (.saturation, "Saturation"), (.perceptual, "Perceptual")]

def toJson : RenderingIntent → Json
  | .other name => .obj [("Other", .str name)]
  | intent => nameIn names intent

def ofJson? : Json → Option RenderingIntent
  | .obj [("Other", .str name)] => some (.other name)
  | j => ofNames? names j

end RenderingIntent

def SoftMask.toJson (m : SoftMask Float) : Json :=
  .obj [("subtype", .str m.subtype),
    ("backdrop", Json.ofOption (m.backdrop.map fun components => .arr (components.map .num)))]

def SoftMask.ofJson? (j : Json) : Option (SoftMask Float) := do
  match ← record? ["subtype", "backdrop"] j with
  | [subtype, backdrop] => return ⟨← text? subtype, ← optional? (list? single?) backdrop⟩
  | _ => none

def ClipRegion.toJson (r : ClipRegion Float) : Json :=
  .obj [("path", r.path.toJson), ("rule", nameIn FillRule.names r.rule)]

def ClipRegion.ofJson? (j : Json) : Option (ClipRegion Float) := do
  match ← record? ["path", "rule"] j with
  | [path, rule] => return ⟨← Path.ofJson? path, ← ofNames? FillRule.names rule⟩
  | _ => none

def Clip.toJson (c : Clip Float) : Json := .obj [("regions", .arr (c.regions.map ClipRegion.toJson))]

def Clip.ofJson? (j : Json) : Option (Clip Float) := do
  match ← record? ["regions"] j with
  | [regions] => return ⟨← list? ClipRegion.ofJson? regions⟩
  | _ => none

namespace WarningCode

/-- The codes that have no detail. -/
def names : List (WarningCode × String) :=
  [(.missingOperand, "MissingOperand"), (.invalidOperand, "InvalidOperand"),
    (.missingResource, "MissingResource"), (.emptyGraphicsStack, "EmptyGraphicsStack"),
    (.recursionLimit, "RecursionLimit"), (.unsupportedOperator, "UnsupportedOperator"),
    (.textState, "TextState"), (.encodingFallback, "EncodingFallback")]

def toJson : WarningCode → Json
  | .other detail => .obj [("type", .str "Other"), ("detail", .str detail)]
  | code => .obj [("type", nameIn names code)]

/-- A code is a record of its type and its detail; codes without a detail allow for `null`. -/
def ofJson? (j : Json) : Option WarningCode := do
  match ← record? ["type", "detail"] j with
  | [kind, .null] => ofNames? names kind
  | [kind, .str detail] => if (← plainChoice? kind) == "Other" then return .other detail else none
  | _ => none

end WarningCode

def Warning.toJson (w : Warning) : Json :=
  .obj [("code", w.code.toJson), ("description", .str w.description),
    ("operator", Json.ofOption (w.operator.map .str)),
    ("operator_index", Json.ofOption (w.operatorIndex.map fun i => .int i)),
    ("depth", .int w.depth), ("resource", Json.ofOption (w.resource.map .str))]

def Warning.ofJson? (j : Json) : Option Warning := do
  match ← record? ["code", "description", "operator", "operator_index", "depth", "resource"] j with
  | [code, description, operator, index, depth, resource] =>
    return { code := ← WarningCode.ofJson? code
             description := ← text? description
             operator := ← optional? text? operator
             operatorIndex := ← optional? count? index
             depth := ← count? depth
             resource := ← optional? text? resource }
  | _ => none

end PdfContent
