import PdfContent.Document.ObjectTable
import PdfContent.Trace.Values

/-!
# Documents as JSON

A document is given as an object with the entries `objects`, which has an entry for each number in the
table, and `trailer`. In it a string stands for a name and an object for a dictionary, whose keys are put
in order. An object with a key that starts with `$` is one of the other kinds: `$real`, `$str`, `$ref` with
a number and a generation, or `$stream` with the data, beside `$dict` with the entries. Bytes are written
as a string with one character each.
-/

namespace PdfContent

namespace ObjectEntries

/-- The entries with a new value for a key, in the place of the old one or at the end. -/
def insert {K : Type} (key : Bytes) (o : Object K) : ObjectEntries K → ObjectEntries K
  | [] => [(key, o)]
  | entry :: rest => if entry.1 == key then (key, o) :: rest else entry :: insert key o rest

end ObjectEntries

namespace Object

/-- The object of a JSON object, given its entries as they stand and as objects of the document. -/
def ofMembers (raw : Json) (entries : ObjectEntries Float) : Object Float :=
  if let some x := raw.get? "$real" then .real (Trace.toSingle x)
  else if let some s := raw.get? "$str" then .string (Trace.toBytes s)
  else if let some id := raw.get? "$ref" then .reference ⟨(id.item 0).natural, (id.item 1).natural⟩
  else if let some data := raw.get? "$stream" then
    let data := Trace.toBytes data
    let described := ((entries.at? "$dict").bind dictionary?).getD []
    .stream (described.insert (Text.encodeUtf8 "Length") (.integer data.length)) data
  else .dictionary entries

mutual

def ofJson : Json → Object Float
  | .null => .null
  | .bool b => .boolean b
  | .int i => .integer i
  | .num x => .real (Trace.toSingle (.num x))
  | .str s => .name (Trace.toBytes (.str s))
  | .arr items => .array (itemsOfJson items)
  | .obj entries =>
    ofMembers (.obj entries)
      (((entriesOfJson entries).mergeSort fun a b => a.1 ≤ b.1).map fun e => (Trace.toBytes (.str e.1), e.2))

def itemsOfJson : List Json → List (Object Float)
  | [] => []
  | j :: rest => ofJson j :: itemsOfJson rest

def entriesOfJson : List (String × Json) → List (String × Object Float)
  | [] => []
  | (key, j) :: rest => (key, ofJson j) :: entriesOfJson rest

end

end Object

/-- The table of a JSON object; each of its objects has generation 0. -/
def ObjectTable.ofJson? (j : Json) : Option (ObjectTable Float) := do
  let objects ← (← j.present? "objects").entries.mapM fun (number, o) => do
    return (⟨← number.toNat?, 0⟩, Object.ofJson o)
  return ⟨objects, ((Object.ofJson (j.field "trailer")).dictionary?).getD []⟩

end PdfContent
