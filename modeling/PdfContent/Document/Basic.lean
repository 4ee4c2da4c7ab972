import PdfContent.Content.Operand
import PdfContent.Diagnostics
import PdfContent.Document.Object
import PdfContent.Geometry

/-!
# Documents

A document is what the reader of its file makes of it; nothing is assumed about that. What it has under a
number may be any object, also a reference, and not every number has one. References are followed only a
bounded number of times, so every look-up ends even where references go in circles. `toOperand` makes a
self-contained value of an object: it follows references near the top and keeps those that lie deeper.
-/

namespace PdfContent

/-- A document as its file has been read. Where something cannot be had, the reason is given in words. -/
structure Document (K : Type) where
  /-- The object under a number. -/
  find : ObjectId → Except String (Object K)
  /-- The numbers of the pages, in order. -/
  pageIds : List ObjectId
  /-- The data of a stream with filters, after the filters. -/
  decode : ObjectStream K → Except String Bytes
  /-- What is said of an object that has another type than the expected one. -/
  wrongType : (expected : String) → Object K → String
  /-- How an object is shown in a message. -/
  describe : Object K → String

variable {K : Type}

namespace Document

variable (d : Document K)

/-- The dictionary under a number. -/
def findDictionary (id : ObjectId) : Except String (ObjectEntries K) := do
  let o ← d.find id
  match o.dictionary? with
  | some entries => .ok entries
  | none => .error (d.wrongType "Dictionary" o)

/-- The data of a stream as its users see them. -/
def content (s : ObjectStream K) : Except ReadError Bytes :=
  match s.entries.at? "Filter" with
  | none => .ok s.data
  | some _ => (d.decode s).mapError fun reason => .parse ("failed to decode stream: " ++ reason)

/-- How often `resolve` follows a reference. -/
def resolveLimit : Nat := 8

/-- An object with references followed, `bound` times at most; null for what cannot be found. -/
def resolveWithin : (bound : Nat) → Object K → Object K
  | 0, o => o
  | bound + 1, .reference id =>
    match d.find id with
    | .ok next => resolveWithin bound next
    | .error _ => .null
  | _ + 1, o => o

/-- What an object is or refers to. -/
def resolve (o : Object K) : Object K := d.resolveWithin resolveLimit o

/-- The entry of a dictionary, or what it refers to. -/
def entry? (entries : ObjectEntries K) (key : String) : Option (Object K) :=
  (entries.at? key).map d.resolve

def name? (entries : ObjectEntries K) (key : String) : Option String :=
  (d.entry? entries key).bind Object.name?

/-- Whether an entry is there and true. -/
def flag (entries : ObjectEntries K) (key : String) : Bool :=
  ((d.entry? entries key).bind Object.boolean?).getD false

def dictionary? (entries : ObjectEntries K) (key : String) : Option (ObjectEntries K) :=
  (d.entry? entries key).bind Object.dictionary?

/-- The elements of an array, or what they refer to. -/
def array? (entries : ObjectEntries K) (key : String) : Option (List (Object K)) :=
  ((d.entry? entries key).bind Object.array?).map fun items => items.map d.resolve

variable [Scalar K]

def number? (entries : ObjectEntries K) (key : String) : Option K :=
  (d.entry? entries key).bind Object.number?

/-- The numbers of an array that holds nothing else. -/
def numbersOf? (o : Object K) : Option (List K) := do
  (← (d.resolve o).array?).mapM fun item => (d.resolve item).number?

def numbers? (entries : ObjectEntries K) (key : String) : Option (List K) :=
  (entries.at? key).bind d.numbersOf?

def boxOf? (o : Object K) : Option (BBox K) := (d.numbersOf? o).bind BBox.ofList?

def box? (entries : ObjectEntries K) (key : String) : Option (BBox K) :=
  (entries.at? key).bind d.boxOf?

def matrix? (entries : ObjectEntries K) (key : String) : Option (Matrix K) :=
  (d.numbers? entries key).bind Matrix.ofList?

end Document

/-- The integer part of a number, moved into the range of 32 bits without a sign. -/
def natural32 [Scalar K] (x : K) : Nat := (Scalar.clampInt 0 (0xFFFFFFFF) x).toNat

/-- The integer part of a number, moved into the range of 64 bits. -/
def integer64 [Scalar K] (x : K) : Int := Scalar.clampInt minInteger maxInteger x

namespace Object

mutual

/-- An object as an operand, with its references kept. Of a stream only the dictionary is left. -/
def plainOperand : Object K → Operand K
  | .null => .null
  | .boolean b => .boolean b
  | .integer i => .integer i
  | .real x => .real x
  | .name bytes => .name (Text.decodeUtf8 bytes)
  | .string bytes => .literal bytes
  | .array items => .array (plainItems items)
  | .dictionary entries => .dictionary (Dictionary.ofList (plainEntries entries))
  | .stream entries _ => .dictionary (Dictionary.ofList (plainEntries entries))
  | .reference id => .reference id.number id.generation

def plainItems : List (Object K) → List (Operand K)
  | [] => []
  | o :: rest => plainOperand o :: plainItems rest

def plainEntries : List (Bytes × Object K) → List (String × Operand K)
  | [] => []
  | (key, o) :: rest => (Text.decodeUtf8 key, plainOperand o) :: plainEntries rest

end

end Object

namespace Document

variable (d : Document K)

/-- An object as an operand, with references followed on the upper `levels` levels of nesting. -/
def operandWithin : (levels : Nat) → Object K → Operand K
  | 0, o => o.plainOperand
  | levels + 1, o =>
    let entries (es : ObjectEntries K) : Dictionary K :=
      Dictionary.ofList (es.map fun e => (Text.decodeUtf8 e.1, operandWithin levels e.2))
    match o with
    | .array items => .array (items.map (operandWithin levels))
    | .dictionary es => .dictionary (entries es)
    | .stream es _ => .dictionary (entries es)
    | .reference id =>
      match d.find id with
      | .ok next => operandWithin levels next
      | .error _ => .null
    | o => o.plainOperand

/-- The levels on which `toOperand` follows references. -/
def operandLevels : Nat := 4

def toOperand (o : Object K) : Operand K := d.operandWithin operandLevels o

end Document

end PdfContent
