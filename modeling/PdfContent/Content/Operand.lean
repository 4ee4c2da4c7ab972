import PdfContent.Scalar
import PdfContent.Text.Unicode
import PdfContent.Diagnostics

/-!
# Operands, operators and tokens

Content is a sequence of operands, each followed some time later by the operator that uses them. A
dictionary is a list of entries in the order of their keys, each key once.
-/

namespace PdfContent

inductive Operand (K : Type)
  | null
  | boolean (b : Bool)
  | integer (i : Int)
  | real (x : K)
  | name (text : String)
  | literal (bytes : Bytes)
  | hexadecimal (bytes : Bytes)
  | array (items : List (Operand K))
  | dictionary (entries : List (String × Operand K))
  | reference (number generation : Nat)
  | stream (parameters : List (String × Operand K)) (data : Bytes)

/-- Entries in the order of their keys. -/
abbrev Dictionary (K : Type) := List (String × Operand K)

namespace Dictionary

variable {K : Type}

def get? (d : Dictionary K) (key : String) : Option (Operand K) :=
  (d.find? fun entry => entry.1 == key).map Prod.snd

/-- The dictionary with `key` set to `value`. -/
def insert : Dictionary K → String → Operand K → Dictionary K
  | [], key, value => [(key, value)]
  | (k, v) :: rest, key, value =>
    if key == k then (key, value) :: rest
    else if key < k then (key, value) :: (k, v) :: rest
    else (k, v) :: Dictionary.insert rest key value

/-- Later entries replace earlier ones with the same key. -/
def ofList (entries : List (String × Operand K)) : Dictionary K :=
  entries.foldl (fun d entry => Dictionary.insert d entry.1 entry.2) []

end Dictionary

/-- The range of integers that content can hold. -/
def minInteger : Int := -0x8000000000000000

def maxInteger : Int := 0x7FFFFFFFFFFFFFFF

namespace Operand

variable {K : Type} [Scalar K]

def number? : Operand K → Option K
  | .integer i => some (Scalar.ofInt i)
  | .real x => some x
  | _ => none

/-- An integer, or a real number without a fractional part moved into the range of integers. -/
def integer? : Operand K → Option Int
  | .integer i => some i
  | .real x => if Scalar.isWhole x then some (Scalar.clampInt minInteger maxInteger x) else none
  | _ => none

def name? : Operand K → Option String
  | .name text => some text
  | _ => none

/-- The bytes of a string, however it was written. -/
def bytes? : Operand K → Option Bytes
  | .literal bytes => some bytes
  | .hexadecimal bytes => some bytes
  | _ => none

def array? : Operand K → Option (List (Operand K))
  | .array items => some items
  | _ => none

def dictionary? : Operand K → Option (Dictionary K)
  | .dictionary entries => some entries
  | _ => none

def boolean? : Operand K → Option Bool
  | .boolean b => some b
  | _ => none

/-- The word for the operand's type in messages. -/
def typeName : Operand K → String
  | .null => "null"
  | .boolean _ => "boolean"
  | .integer _ => "integer"
  | .real _ => "real"
  | .name _ => "name"
  | .literal _ => "string"
  | .hexadecimal _ => "string"
  | .array _ => "array"
  | .dictionary _ => "dictionary"
  | .reference _ _ => "reference"
  | .stream _ _ => "stream"

end Operand

/-- An image that is part of the content. Each key has a short and a long form. -/
structure InlineImage (K : Type) where
  parameters : Dictionary K
  data : Bytes

namespace InlineImage

variable {K : Type}

/-- The parameter under its short name, else under its long one. -/
def parameter? (image : InlineImage K) (short long : String) : Option (Operand K) :=
  (Dictionary.get? image.parameters short).or (Dictionary.get? image.parameters long)

/-- The names of the filters that the data went through. -/
def filters (image : InlineImage K) : List String :=
  match image.parameter? "F" "Filter" with
  | some (.name text) => [text]
  | some (.array items) =>
    items.filterMap fun
      | .name text => some text
      | _ => none
  | _ => []

end InlineImage

/-- One appearance of an inline image in content. Two appearances with equal images are still two:
`serial` tells them apart. -/
structure ImageOccurrence (K : Type) where
  serial : Nat
  image : InlineImage K

/-- An operator as it stands in content, with its image if it has one. -/
structure Operator (K : Type) where
  keyword : String
  occurrence : Option (ImageOccurrence K)

namespace Operator

variable {K : Type}

def plain (keyword : String) : Operator K := ⟨keyword, none⟩

/-- An operator by its keyword. A name is no keyword. -/
def ofKeyword (keyword : String) : Except ContentError (Operator K) :=
  if keyword.startsWith "/" then .error (.invalidOperator keyword) else .ok (plain keyword)

def withImage (op : Operator K) (occurrence : ImageOccurrence K) : Operator K :=
  { op with occurrence := some occurrence }

def image? (op : Operator K) : Option (InlineImage K) := op.occurrence.map ImageOccurrence.image

/-- Whether the keyword alone says everything about the operator; the keywords around an inline image
do not. -/
def isPlainKeyword (op : Operator K) : Bool := !(op.keyword == "BI" || op.keyword == "ID")

/-- The same keyword and the same appearance of an image. -/
def sameAs (a b : Operator K) : Bool :=
  a.keyword == b.keyword &&
    match a.occurrence, b.occurrence with
    | none, none => true
    | some i, some j => i.serial == j.serial
    | _, _ => false

end Operator

inductive Token (K : Type)
  | operand (value : Operand K)
  | operator (op : Operator K)

/-- An operator together with its operands. -/
structure Call (K : Type) where
  operator : Operator K
  operands : List (Operand K)

end PdfContent
