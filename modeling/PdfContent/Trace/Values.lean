import PdfContent.Json
import PdfContent.Path
import PdfContent.Content.Operand
import PdfContent.Scalar.Binary64

/-!
# Traces: numbers, bytes, shapes and operands

A trace is an account of a run as JSON, made to be read and compared: points, matrices and boxes are
arrays, a path is an array of segments, bytes are a string with one character each. Numbers that are not
finite have names, and the sign of zero is left out. Whatever can be part of the input of a run can also
be read back; what is missing or of another kind counts as empty.
-/

namespace PdfContent.Trace

def number (x : Float) : Json :=
  if x.isNaN then .str "NaN"
  else if x.isInf then .str (if 0 < x then "inf" else "-inf")
  else .num (if x == 0 then 0 else x)

def toNumber : Json → Float
  | .num x => x
  | .int i => Float.ofInt i
  | .str "inf" => Binary64.infinity
  | .str "-inf" => -Binary64.infinity
  | .str _ => 0 / 0
  | _ => 0

/-- A number rounded to single precision. -/
def toSingle (j : Json) : Float := (toNumber j).toFloat32.toFloat

def toNumber? (j : Json) : Option Float := if j.isNull then none else some (toNumber j)

/-- `null` for what is absent. -/
def orNull {α : Type} (write : α → Json) (a : Option α) : Json := Json.ofOption (a.map write)

def list {α : Type} (write : α → Json) (items : List α) : Json := .arr (items.map write)

def bytes (s : Bytes) : Json := .str (String.ofList (s.map fun b => Char.ofNat b.toNat))

def toBytes (j : Json) : Bytes := j.text.toList.map fun c => UInt8.ofNat c.toNat

def point (p : Point Float) : Json := .arr [number p.x, number p.y]

def toPoint (j : Json) : Point Float := ⟨toNumber (j.item 0), toNumber (j.item 1)⟩

def matrix (m : Matrix Float) : Json := list number m.toList

/-- A matrix; the identity for what is none. -/
def toMatrix (j : Json) : Matrix Float := (Matrix.ofList? (j.items.map toNumber)).getD .identity

def box (b : BBox Float) : Json := .arr [number b.x0, number b.y0, number b.x1, number b.y1]

def toBox (j : Json) : BBox Float := (BBox.ofList? (j.items.map toNumber)).getD ⟨0, 0, 0, 0⟩

def segment : Segment Float → Json
  | .moveTo p => .arr [.str "M", number p.x, number p.y]
  | .lineTo p => .arr [.str "L", number p.x, number p.y]
  | .curveTo p q r =>
    .arr [.str "C", number p.x, number p.y, number q.x, number q.y, number r.x, number r.y]
  | .close => .arr [.str "Z"]

def toSegment (j : Json) : Segment Float :=
  let x (i : Nat) := toNumber (j.item i)
  match (j.item 0).text with
  | "M" => .moveTo ⟨x 1, x 2⟩
  | "L" => .lineTo ⟨x 1, x 2⟩
  | "C" => .curveTo ⟨x 1, x 2⟩ ⟨x 3, x 4⟩ ⟨x 5, x 6⟩
  | _ => .close

def path (p : Path Float) : Json := list segment p.segments

def toPath (j : Json) : Path Float := ⟨j.items.map toSegment⟩

mutual

def operand : Operand Float → Json
  | .null => .null
  | .boolean b => .bool b
  | .integer i => .obj [("int", .int i)]
  | .real x => .obj [("real", number x)]
  | .name s => .obj [("name", .str s)]
  | .literal s => .obj [("str", bytes s)]
  | .hexadecimal s => .obj [("hex", bytes s)]
  | .array vs => .arr (operandItems vs)
  | .dictionary d => .obj [("dict", .obj (operandEntries d))]
  | .reference n g => .obj [("ref", .arr [.ofNat n, .ofNat g])]
  | .stream d s => .obj [("stream", .obj [("params", .obj (operandEntries d)), ("data", bytes s)])]

def operandItems : List (Operand Float) → List Json
  | [] => []
  | v :: rest => operand v :: operandItems rest

def operandEntries : List (String × Operand Float) → List (String × Json)
  | [] => []
  | (key, v) :: rest => (key, operand v) :: operandEntries rest

end

/-- An operand that is nested less deeply than the bound. -/
def toOperandWithin : (bound : Nat) → Json → Operand Float
  | 0, _ => .null
  | bound + 1, j =>
    let entries (d : Json) : Dictionary Float :=
      Dictionary.ofList (d.entries.map fun e => (e.1, toOperandWithin bound e.2))
    match j with
    | .bool b => .boolean b
    | .arr vs => .array (vs.map (toOperandWithin bound))
    | .obj [("int", v)] => .integer v.integer
    | .obj [("real", v)] => .real (toNumber v)
    | .obj [("name", v)] => .name v.text
    | .obj [("str", v)] => .literal (toBytes v)
    | .obj [("hex", v)] => .hexadecimal (toBytes v)
    | .obj [("dict", v)] => .dictionary (entries v)
    | .obj [("ref", v)] => .reference (v.item 0).natural (v.item 1).natural
    | .obj [("stream", v)] => .stream (entries (v.field "params")) (toBytes (v.field "data"))
    | _ => .null

def toOperand (j : Json) : Operand Float := toOperandWithin (j.depth + 1) j

def dictionary (d : Dictionary Float) : Json := .obj (operandEntries d)

def toDictionary (j : Json) : Dictionary Float :=
  Dictionary.ofList (j.entries.map fun e => (e.1, toOperand e.2))

def inlineImage (i : InlineImage Float) : Json :=
  .obj [("params", dictionary i.parameters), ("data", bytes i.data)]

def toInlineImage (j : Json) : InlineImage Float :=
  ⟨toDictionary (j.field "params"), toBytes (j.field "data")⟩

def token : Token Float → Json
  | .operand v => operand v
  | .operator op =>
    .obj (("op", .str op.keyword) ::
      match op.image? with
      | none => []
      | some image => [("image", inlineImage image)])

end PdfContent.Trace
