import PdfContent.Decimal.Shortest

/-!
# JSON values and their text

The text is compact. Numbers keep apart whether they are integers; a real number is written with the
fewest digits that read back, and `null` stands for one that is not finite. Characters beyond the ASCII
range are written as they are.
-/

namespace PdfContent

inductive Json
  | null
  | bool (b : Bool)
  | int (i : Int)
  | num (x : Float)
  | str (s : String)
  | arr (items : List Json)
  | obj (entries : List (String × Json))

namespace Json

def hexDigit (n : Nat) : Char := Char.ofNat (if n < 10 then 48 + n else 87 + n)

/-- A character inside quotes. -/
def escapeChar (c : Char) : List Char :=
  if c == '"' then ['\\', '"']
  else if c == '\\' then ['\\', '\\']
  else if c == '\n' then ['\\', 'n']
  else if c == '\r' then ['\\', 'r']
  else if c == '\t' then ['\\', 't']
  else if c.toNat == 8 then ['\\', 'b']
  else if c.toNat == 12 then ['\\', 'f']
  else if c.toNat < 32 then ['\\', 'u', '0', '0', hexDigit (c.toNat / 16), hexDigit (c.toNat % 16)]
  else [c]

/-- A quoted text. -/
def quote (s : String) : String := "\"" ++ String.ofList (s.toList.flatMap escapeChar) ++ "\""

def ofOption : Option Json → Json
  | some j => j
  | none => .null

def ofNat (n : Nat) : Json := .int n

def strings (items : List String) : Json := .arr (items.map .str)

mutual

/-- The value with the entries of all its objects in the order of their keys. -/
def sortKeys : Json → Json
  | .arr items => .arr (sortKeysItems items)
  | .obj entries => .obj ((sortKeysEntries entries).mergeSort fun a b => a.1 ≤ b.1)
  | j => j

def sortKeysItems : List Json → List Json
  | [] => []
  | j :: rest => sortKeys j :: sortKeysItems rest

def sortKeysEntries : List (String × Json) → List (String × Json)
  | [] => []
  | (key, j) :: rest => (key, sortKeys j) :: sortKeysEntries rest

end

mutual

def render : Json → String
  | .null => "null"
  | .bool b => if b then "true" else "false"
  | .int i => toString i
  | .num x => if x.isFinite then Digits.dataText x else "null"
  | .str s => quote s
  | .arr items => "[" ++ ",".intercalate (renderItems items) ++ "]"
  | .obj entries => "\x7b" ++ ",".intercalate (renderEntries entries) ++ "\x7d"

def renderItems : List Json → List String
  | [] => []
  | j :: rest => render j :: renderItems rest

def renderEntries : List (String × Json) → List String
  | [] => []
  | (key, j) :: rest => (quote key ++ ":" ++ render j) :: renderEntries rest

end

/-- The value of a key; none for what is no object. -/
def get? : Json → String → Option Json
  | .obj entries, key => (entries.find? fun entry => entry.1 == key).map Prod.snd
  | _, _ => none

/-- The value of a key, or `null`. -/
def field (j : Json) (key : String) : Json := (j.get? key).getD .null

def isNull : Json → Bool
  | .null => true
  | _ => false

/-- The value of a key unless it is `null`. -/
def present? (j : Json) (key : String) : Option Json :=
  match j.get? key with
  | some .null => none
  | value => value

/-- The elements of an array. -/
def items : Json → List Json
  | .arr items => items
  | _ => []

/-- The entries of an object. -/
def entries : Json → List (String × Json)
  | .obj entries => entries
  | _ => []

/-- An element of an array, or `null`. -/
def item (j : Json) (index : Nat) : Json := j.items.getD index .null

def text? : Json → Option String
  | .str s => some s
  | _ => none

/-- The text of a string; empty for everything else. -/
def text (j : Json) : String := j.text?.getD ""

def bool? : Json → Option Bool
  | .bool b => some b
  | _ => none

def isTrue (j : Json) : Bool := j.bool? == some true

def int? : Json → Option Int
  | .int i => some i
  | _ => none

/-- An integer; zero for everything else. -/
def integer (j : Json) : Int := j.int?.getD 0

/-- An integer that is not negative; zero for everything else. -/
def natural (j : Json) : Nat := j.integer.toNat

mutual

/-- How deep arrays and objects are nested. -/
def depth : Json → Nat
  | .arr items => depthItems items + 1
  | .obj entries => depthEntries entries + 1
  | _ => 0

def depthItems : List Json → Nat
  | [] => 0
  | j :: rest => max (depth j) (depthItems rest)

def depthEntries : List (String × Json) → Nat
  | [] => 0
  | (_, j) :: rest => max (depth j) (depthEntries rest)

end

end Json

end PdfContent
