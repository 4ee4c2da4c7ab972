import PdfContent.Document.Basic

/-!
# Tables of objects

A document for running the program: a table of numbered objects and a trailer. Where an object under a
number is a reference, the table goes on to what that leads to. The pages are the leaves of a tree that
starts at the catalog; it may be broken or go in circles, and walking it visits no more nodes than there
are objects. The only filter known here is the base-85 text encoding, which spells four bytes by five
characters from `!` to `u`, or four zero bytes by `z`; white space counts nothing, and any other character
ends the data.
-/

namespace PdfContent

namespace Base85

/-- The four bytes of a 32-bit number, highest first. -/
def fourBytes (n : Nat) : Bytes :=
  [UInt8.ofNat (n / 0x1000000), UInt8.ofNat (n / 0x10000), UInt8.ofNat (n / 0x100), UInt8.ofNat n]

/-- A number with one more digit. The multiplication has to stay below `2 ^ 32`. -/
def appendDigit (n digit : Nat) : Except String Nat :=
  if n * 85 < 0x100000000 then .ok ((n * 85 + digit) % 0x100000000)
  else .error "multiplication overflow"

/-- The bytes of an unfinished group: it is filled up with the highest digit, and gives one byte less
than it has digits. -/
def finishGroup (n count : Nat) : Except String Bytes :=
  if count = 0 then .ok []
  else do
    let full ← (List.replicate (5 - count) 84).foldlM appendDigit n
    return (fourBytes full).take (count - 1)

/-- Decodes after `count` digits of a group with the value `n`. -/
def decodeGroup (n count : Nat) : Bytes → Except String Bytes
  | [] => finishGroup n count
  | b :: rest =>
    if b == 0x7A then
      if count = 0 then do return [0, 0, 0, 0] ++ (← decodeGroup 0 0 rest)
      else .error "z character is not allowed in the middle of a group"
    else if b == 0x20 || b == 0x09 || b == 0x0A || b == 0x0C || b == 0x0D then decodeGroup n count rest
    else if b < 0x21 || 0x75 < b then finishGroup n count
    else do
      let m ← appendDigit n (b.toNat - 0x21)
      if count = 4 then return fourBytes m ++ (← decodeGroup 0 0 rest)
      else decodeGroup m (count + 1) rest

/-- The data before the end mark, if there is one. -/
def withoutEndMark (data : Bytes) : Bytes :=
  if [0x7E, 0x3E].isSuffixOf data then data.take (data.length - 2) else data

def decode (data : Bytes) : Except String Bytes := decodeGroup 0 0 (withoutEndMark data)

end Base85

variable {K : Type}

namespace Object

/-- The word for an object's type. -/
def typeName : Object K → String
  | .null => "Null"
  | .boolean _ => "Boolean"
  | .integer _ => "Integer"
  | .real _ => "Real"
  | .name _ => "Name"
  | .string _ => "String"
  | .array _ => "Array"
  | .dictionary _ => "Dictionary"
  | .stream _ _ => "Stream"
  | .reference _ => "Reference"

def wrongType (expected : String) (o : Object K) : String :=
  "object has wrong type; expected type " ++ expected ++ " but found type " ++ o.typeName

mutual

/-- An object as text. -/
def text [Scalar K] : Object K → String
  | .null => "Null"
  | .boolean b => if b then "true" else "false"
  | .integer i => toString i
  | .real x => Scalar.text x
  | .name bytes => "/" ++ Text.decodeUtf8 bytes
  | .string bytes => "(" ++ Text.decodeUtf8 bytes ++ ")"
  | .array items => "[" ++ " ".intercalate (itemTexts items) ++ "]"
  | .dictionary entries => "<<" ++ entriesText entries ++ ">>"
  | .stream entries _ => "<<" ++ entriesText entries ++ ">>stream...endstream"
  | .reference id => toString id.number ++ " " ++ toString id.generation ++ " R"

def itemTexts [Scalar K] : List (Object K) → List String
  | [] => []
  | o :: rest => text o :: itemTexts rest

def entriesText [Scalar K] : List (Bytes × Object K) → String
  | [] => ""
  | (key, o) :: rest => "/" ++ Text.decodeUtf8 key ++ " " ++ text o ++ entriesText rest

end

end Object

/-! ### Filters -/

/-- The names of filters, directly as a name or as an array of names. -/
def filterNames : Object K → Except String (List Bytes)
  | .name bytes => .ok [bytes]
  | .array items =>
    items.mapM fun item =>
      match item.nameBytes? with
      | some bytes => .ok bytes
      | none => .error (item.wrongType "Name")
  | o => .error (o.wrongType "Name or Array")

/-- The data after one filter. The first argument is what is said of a filter that is not known. -/
def applyFilter (unknown : String) (data filter : Bytes) : Except String Bytes :=
  if filter == Text.encodeUtf8 "ASCII85Decode" then
    (Base85.decode data).mapError fun reason =>
      "couldn't decompress stream decoding ASCII85 failed: " ++ reason
  else .error unknown

/-- The data after all filters; an empty list of filters leaves no data. -/
def ObjectStream.filtered (unknown : String) (s : ObjectStream K) : Except String Bytes :=
  match s.entries.at? "Filter" with
  | none => .ok s.data
  | some filter => do
    match ← filterNames filter with
    | [] => return []
    | filters => filters.foldlM (applyFilter unknown) s.data

/-! ### Tables -/

structure ObjectTable (K : Type) where
  objects : List (ObjectId × Object K)
  trailer : ObjectEntries K

namespace ObjectTable

variable (t : ObjectTable K)

/-- The entry of the table under a number. -/
def stored? (id : ObjectId) : Option (Object K) :=
  (t.objects.find? fun entry => entry.1 == id).map Prod.snd

/-- Follows references from a number in the table, `bound` of them at most. -/
def follow (id : ObjectId) : (bound : Nat) → Except String (Object K)
  | 0 =>
    match t.stored? id with
    | none => .error (notFound id)
    | some _ => .error "dereferencing object reached limit, may indicate a reference cycle"
  | bound + 1 =>
    match t.stored? id with
    | none => .error (notFound id)
    | some (.reference next) => follow next bound
    | some o => .ok o
where
  notFound (id : ObjectId) : String :=
    "object ID " ++ toString id.number ++ " " ++ toString id.generation ++ " not found"

/-- The object under a number; if that is a reference, what it leads to. -/
def find (id : ObjectId) : Except String (Object K) := t.follow id 129

/-- The dictionary under a number. -/
def dictionaryAt? (id : ObjectId) : Option (ObjectEntries K) :=
  (t.find id).toOption.bind Object.dictionary?

/-- The elements of the array of kids of a node. -/
def kids (id : ObjectId) : List (Object K) :=
  match (t.dictionaryAt? id).bind fun entries => entries.at? "Kids" with
  | some (.reference id) => ((t.find id).toOption.bind Object.array?).getD []
  | some o => o.array?.getD []
  | none => []

/-- The type that the dictionary of a node names. -/
def nodeType? (id : ObjectId) : Option String :=
  ((t.dictionaryAt? id).bind fun entries => entries.at? "Type").bind Object.name?

/-- How many levels of the page tree may be open. -/
def treeLimit : Nat := 256

/-- The pages among kids that are still to be visited, level by level from the innermost one. -/
def pagesAmong : (steps : Nat) → List (List (Object K)) → List ObjectId
  | 0, _ => []
  | steps + 1, levels =>
    match levels.dropWhile List.isEmpty with
    | (kid :: rest) :: outer =>
      match kid.reference? with
      | none => pagesAmong steps (rest :: outer)
      | some id =>
        match t.nodeType? id with
        | some "Page" => id :: pagesAmong steps (rest :: outer)
        | some "Pages" =>
          if outer.length < treeLimit then
            pagesAmong steps (t.kids id :: (if rest.isEmpty then outer else rest :: outer))
          else pagesAmong steps (rest :: outer)
        | _ => pagesAmong steps (rest :: outer)
    | _ => []

/-- The root of the page tree. -/
def pageTree? : Option ObjectId := do
  let entries ← t.dictionaryAt? (← (← t.trailer.at? "Root").reference?)
  (← entries.at? "Pages").reference?

/-- The pages in order. -/
def pageIds : List ObjectId :=
  match t.pageTree? with
  | none => []
  | some root => t.pagesAmong t.objects.length [t.kids root]

/-- The document of a table. The first argument is what is said of a filter that is not known. -/
def document [Scalar K] (unknown : String) : Document K where
  find := t.find
  pageIds := t.pageIds
  decode s := s.filtered unknown
  wrongType := Object.wrongType
  describe := Object.text

end ObjectTable

end PdfContent
