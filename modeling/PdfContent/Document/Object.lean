import PdfContent.Scalar
import PdfContent.Text.Unicode

/-!
# Objects of a document

The objects of a document have numbers, by which they refer to each other. Names and the keys of
dictionaries are byte strings; a dictionary keeps its entries in order, each key once. The functions
that view an object as a value of a certain type do not follow references.
-/

namespace PdfContent

/-- The number and generation of an object in the table. -/
structure ObjectId where
  number : Nat
  generation : Nat
  deriving DecidableEq, Repr

inductive Object (K : Type)
  | null
  | boolean (b : Bool)
  | integer (i : Int)
  /-- A number in single precision. -/
  | real (x : K)
  | name (bytes : Bytes)
  | string (bytes : Bytes)
  | array (items : List (Object K))
  | dictionary (entries : List (Bytes × Object K))
  | stream (entries : List (Bytes × Object K)) (data : Bytes)
  | reference (id : ObjectId)

/-- The entries of a dictionary. -/
abbrev ObjectEntries (K : Type) := List (Bytes × Object K)

/-- The data of a stream, with the entries that describe them. -/
structure ObjectStream (K : Type) where
  entries : ObjectEntries K
  data : Bytes

variable {K : Type}

namespace ObjectEntries

/-- The entry of a key. -/
def get? (d : ObjectEntries K) (key : Bytes) : Option (Object K) :=
  (d.find? fun entry => entry.1 == key).map Prod.snd

/-- The entry of a key that is given as text. -/
def at? (d : ObjectEntries K) (key : String) : Option (Object K) := d.get? (Text.encodeUtf8 key)

end ObjectEntries

namespace Object

def boolean? : Object K → Option Bool
  | .boolean b => some b
  | _ => none

def integer? : Object K → Option Int
  | .integer i => some i
  | _ => none

def nameBytes? : Object K → Option Bytes
  | .name bytes => some bytes
  | _ => none

/-- A name as text. -/
def name? (o : Object K) : Option String := o.nameBytes?.map Text.decodeUtf8

def array? : Object K → Option (List (Object K))
  | .array items => some items
  | _ => none

def dictionary? : Object K → Option (ObjectEntries K)
  | .dictionary entries => some entries
  | _ => none

def stream? : Object K → Option (ObjectStream K)
  | .stream entries data => some ⟨entries, data⟩
  | _ => none

def reference? : Object K → Option ObjectId
  | .reference id => some id
  | _ => none

/-- An integer or a real number. -/
def number? [Scalar K] : Object K → Option K
  | .integer i => some (Scalar.ofInt i)
  | .real x => some x
  | _ => none

end Object

end PdfContent
