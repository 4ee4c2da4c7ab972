import PdfContent.Content.TokenStream
import PdfContent.Font.GlyphName
import PdfContent.Font.Overflow
import PdfContent.Text.CharacterSet

/-!
# Character maps

A character map splits strings into codes, and maps codes to glyph numbers and to text. It is either
one of the predefined maps or a small program whose sections list code ranges. Of several entries for a
code the last one holds.

Codes are 32-bit numbers: a code string of more than four bytes keeps its last four.
-/

namespace PdfContent

/-- Codes of `length` bytes from `low` to `high`. -/
structure CodespaceRange where
  low : UInt32
  high : UInt32
  length : Nat
  deriving DecidableEq, Repr

/-- Codes from `low` to `high` mapped to glyph numbers that count on from `cid`. -/
structure CidRange where
  low : UInt32
  high : UInt32
  cid : UInt32
  deriving DecidableEq, Repr

/-- The text of a range of codes: one text, code strings that count on from a first one, or a list in
which an element may be missing. -/
inductive TextTarget
  | one (text : String)
  | consecutive (start : Bytes)
  | listed (targets : List (Option Bytes))
  deriving DecidableEq, Repr

structure TextRange where
  low : UInt32
  high : UInt32
  target : TextTarget
  deriving DecidableEq, Repr

structure CMap where
  name : Option String
  vertical : Bool
  /-- Codes are glyph numbers. -/
  identity : Bool
  codespaces : List CodespaceRange
  cids : List CidRange
  texts : List TextRange
  charset : Option Text.CharacterSet
  deriving DecidableEq, Repr

namespace CMap

/-- The big-endian value of a code string. -/
def codeOf (s : Bytes) : UInt32 := s.foldl (fun n b => n <<< 8 ||| b.toUInt32) 0

/-- Adds `carry` to the big-endian value of the reversed bytes, dropping what no longer fits. -/
def incrementReversed : Bytes → (carry : Nat) → Bytes
  | [], _ => []
  | b :: rest, carry =>
    if carry == 0 then b :: rest
    else UInt8.ofNat (b.toNat + carry) :: incrementReversed rest ((b.toNat + carry) / 256)

/-- The byte string of the same length whose big-endian value is larger by `offset`. -/
def increment (s : Bytes) (offset : Nat) : Bytes := (incrementReversed s.reverse offset).reverse

/-- The text of a target string: a single byte is a Latin character, more are UTF-16 units. -/
def targetText [Text.Decoder] : Bytes → String
  | [b] => String.singleton (Char.ofNat b.toNat)
  | s => (Text.Decoder.decode .utf16 s).1

end CMap

def CodespaceRange.admits (r : CodespaceRange) (code : UInt32) (length : Nat) : Bool :=
  r.length == length && r.low ≤ code && code ≤ r.high

def CidRange.covers (r : CidRange) (code : UInt32) : Bool := r.low ≤ code && code ≤ r.high

/-- The text that a range gives to a code. -/
def TextRange.text? [Text.Decoder] (r : TextRange) (code : UInt32) : Option String :=
  if r.low ≤ code && code ≤ r.high then
    let offset := (code - r.low).toNat
    match r.target with
    | .one text => some text
    | .consecutive start => some (CMap.targetText (CMap.increment start offset))
    | .listed targets => (targets[offset]?.join).map CMap.targetText
  else none

/-- How many codes a range can give a text to. -/
def TextRange.size (r : TextRange) : Nat :=
  if r.low ≤ r.high then
    let span := (r.high - r.low).toNat + 1
    match r.target with
    | .listed targets => min span targets.length
    | _ => span
  else 0

namespace CMap

def empty : CMap := ⟨none, false, false, [], [], [], none⟩

/-- The map under which two-byte codes are glyph numbers. -/
def ofIdentity (vertical : Bool) : CMap :=
  { empty with
    name := some (if vertical then "Identity-V" else "Identity-H")
    vertical
    identity := true
    codespaces := [⟨0, 0xFFFF, 2⟩] }

/-- The character set that a family of predefined maps encodes. -/
def charsetOf? (family : String) : Option Text.CharacterSet :=
  if ["GBK-EUC", "GB-EUC", "GBpc-EUC", "GBK2K"].contains family then some .gbk
  else if ["B5pc", "ETen-B5", "HKscs-B5", "ETenms-B5"].contains family then some .big5
  else if ["90ms-RKSJ", "90pv-RKSJ", "83pv-RKSJ", "78-RKSJ", "Add-RKSJ", "Ext-RKSJ"].contains family then
    some .shiftJis
  else if ["EUC", "78-EUC", "Add-EUC"].contains family then some .eucJp
  else if ["KSC-EUC", "KSCms-UHC", "KSCpc-EUC"].contains family then some .eucKr
  else none

/-- A name without its writing direction, and whether that was vertical. -/
def direction (name : String) : String × Bool :=
  match name.toList.reverse with
  | 'V' :: '-' :: rest => (String.ofList rest.reverse, true)
  | 'H' :: '-' :: rest => (String.ofList rest.reverse, false)
  | _ => (name, false)

/-- The predefined map of a name. -/
def predefined? (name : String) : Option CMap :=
  if name == "Identity-H" then some (ofIdentity false)
  else if name == "Identity-V" then some (ofIdentity true)
  else
    let (family, vertical) := direction name
    (charsetOf? family).map fun charset => { empty with name := some name, vertical, charset := some charset }

/-! ### Programs -/

section Program

variable {K : Type} [Scalar K] [Text.Decoder]

/-- Elements in pairs; an odd one at the end does not count. -/
def pairs {α : Type} : List α → List (α × α)
  | a :: b :: rest => (a, b) :: pairs rest
  | _ => []

/-- Elements in triples; one or two at the end do not count. -/
def triples {α : Type} : List α → List (α × α × α)
  | a :: b :: c :: rest => (a, b, c) :: triples rest
  | _ => []

/-- A glyph number; one out of range counts as zero. -/
def cidOf (i : Int) : UInt32 := if 0 ≤ i && i < 0x100000000 then UInt32.ofNat i.toNat else 0

def codespaceEntry? : Operand K × Operand K → Option CodespaceRange
  | (low, high) => do
    let low ← low.bytes?
    let high ← high.bytes?
    some ⟨codeOf low, codeOf high, max low.length 1⟩

def cidEntry? : Operand K × Operand K → Option CidRange
  | (source, cid) => do
    let code := codeOf (← source.bytes?)
    some ⟨code, code, cidOf (← cid.integer?)⟩

def cidRangeEntry? : Operand K × Operand K × Operand K → Option CidRange
  | (low, high, cid) => do
    some ⟨codeOf (← low.bytes?), codeOf (← high.bytes?), cidOf (← cid.integer?)⟩

def textEntry? : Operand K × Operand K → Option TextRange
  | (source, target) => do
    let code := codeOf (← source.bytes?)
    let text ← match target with
      | .name glyph => Glyph.text? glyph
      | other => other.bytes?.map targetText
    some ⟨code, code, .one text⟩

def textRangeEntry? : Operand K × Operand K × Operand K → Option TextRange
  | (low, high, target) => do
    let low := codeOf (← low.bytes?)
    let high := codeOf (← high.bytes?)
    match target with
    | .array targets => some ⟨low, high, .listed (targets.map Operand.bytes?)⟩
    | other => (other.bytes?).map fun start => ⟨low, high, .consecutive start⟩

/-- Takes over what a predefined map says and the program has not said yet. -/
def usePredefined (m : CMap) (name : String) : CMap :=
  match predefined? name with
  | none => m
  | some parent =>
    { m with
      codespaces := if m.codespaces.isEmpty then parent.codespaces else m.codespaces
      identity := m.identity || parent.identity
      charset := m.charset.or parent.charset }

def define (m : CMap) : List (Operand K) → CMap
  | [.name key, value] =>
    match key, value with
    | "CMapName", .name text => { m with name := some text }
    | "WMode", value => { m with vertical := value.integer? == some 1 }
    | _, _ => m
  | _ => m

/-- Carries out one operator of a program. -/
def execute (m : CMap) (keyword : String) (operands : List (Operand K)) : CMap :=
  match keyword with
  | "endcodespacerange" => { m with codespaces := m.codespaces ++ (pairs operands).filterMap codespaceEntry? }
  | "endbfchar" => { m with texts := m.texts ++ (pairs operands).filterMap textEntry? }
  | "endbfrange" => { m with texts := m.texts ++ (triples operands).filterMap textRangeEntry? }
  | "endcidchar" => { m with cids := m.cids ++ (pairs operands).filterMap cidEntry? }
  | "endcidrange" => { m with cids := m.cids ++ (triples operands).filterMap cidRangeEntry? }
  | "def" => m.define operands
  | "usecmap" =>
    match operands.getLast? with
    | some (.name parent) => m.usePredefined parent
    | _ => m
  | _ => m

/-- Carries out the operators among the tokens, each with the operands since the one before. -/
def run (m : CMap) (operands : List (Operand K)) : List (Token K) → CMap
  | [] => m
  | .operand v :: rest => run m (operands ++ [v]) rest
  | .operator op :: rest => run (m.execute op.keyword operands) [] rest

end Program

/-- Whether some code has a text of its own. -/
def hasText (m : CMap) : Bool :=
  m.texts.any fun r =>
    match r.target with
    | .listed targets => (targets.take r.size).any Option.isSome
    | _ => 0 < r.size

/-- The map that a program defines, over numbers of type `K`. A program that cannot be read to its end
counts up to there; one that maps nothing is refused. -/
def parse (K : Type) [Scalar K] [Text.Decoder] (data : Bytes) : Except ReadError CMap :=
  let m := run (K := K) empty [] (Content.TokenStream.ofBytes data).values
  if m.codespaces.isEmpty && !m.hasText && m.cids.isEmpty then .error (.font "CMap has no mappings")
  else .ok m

/-! ### Looking up -/

/-- The first prefix of up to four bytes that is a code of the map, starting with `length` bytes. -/
def shortestCode? (m : CMap) (s : Bytes) : (lengths : List Nat) → Option (UInt32 × Nat)
  | [] => none
  | length :: rest =>
    let code := codeOf (s.take length)
    if m.codespaces.any fun r => r.admits code length then some (code, length)
    else shortestCode? m s rest

/-- The code at the start of a string and its length in bytes. Where no code fits, as many bytes are
taken as the shortest codes have. -/
def readCode (m : CMap) (s : Bytes) : UInt32 × Nat :=
  match m.charset with
  | some charset =>
    let length := match s with
      | lead :: _ :: _ => if charset.isLead lead then 2 else 1
      | _ => 1
    (codeOf (s.take length), length)
  | none =>
    match m.shortestCode? s (([1, 2, 3, 4] : List Nat).takeWhile fun n => n ≤ s.length) with
    | some found => found
    | none =>
      let shortest := ((m.codespaces.map CodespaceRange.length).min?).getD 1
      let length := max (min shortest s.length) 1
      (codeOf (s.take length), length)

/-- The glyph number of a code, if it has no more than 32 bits. -/
def toCid (m : CMap) (code : UInt32) : Except Overflow UInt32 :=
  if m.identity then .ok code
  else
    match m.cids.reverse.find? fun r => r.covers code with
    | some r => exactSum r.cid (code - r.low)
    | none => .ok 0

variable [Text.Decoder]

/-- The text that the map's own entries give to a code. -/
def mappedText? (m : CMap) (code : UInt32) : Option String :=
  m.texts.reverse.findSome? fun r => r.text? code

/-- The bytes of a code in a character set of one or two bytes. -/
def codeBytes (code : UInt32) : Bytes :=
  if 0xFF < code then [(code >>> 8).toUInt8, code.toUInt8] else [code.toUInt8]

/-- The text of a code. -/
def text? (m : CMap) (code : UInt32) : Option String :=
  (m.mappedText? code).or (m.charset.bind fun charset => Text.wellFormed? charset (codeBytes code))

/-- The first code from `code` on, of `count` codes, that satisfies a condition. -/
def firstCode? (p : UInt32 → Bool) (code : UInt32) : (count : Nat) → Option UInt32
  | 0 => none
  | count + 1 => if p code then some code else firstCode? p (code + 1) count

/-- The smallest code whose text is the given one. -/
def codeFor? (m : CMap) (text : String) : Option UInt32 :=
  (m.texts.filterMap fun r =>
    firstCode? (fun code => r.text? code == some text && m.mappedText? code == some text) r.low r.size).min?

end CMap

end PdfContent
