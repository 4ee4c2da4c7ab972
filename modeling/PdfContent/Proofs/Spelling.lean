import Mathlib.Data.Nat.Digits.Defs
import PdfContent.Content.Lexer

/-!
# How content is spelled

The ways to write a sequence of operands and operators down. Most things can be written in several
ways: a byte of a name by itself or as a code, a digit of a code in either case, the entries of a
dictionary in any order, and white space and comments between items. `Spelled` relates each value to
all its spellings; real numbers, references and streams have none here.
-/

namespace PdfContent

variable {K : Type}

/-- The keys are in order, and each is there once. -/
def Dictionary.Sorted (d : Dictionary K) : Prop := d.Pairwise fun x y => x.1 < y.1

namespace Content

open Text (encodeUtf8)

/-- What stands between items: bytes of a class that is passed over, and comments up to the end of
their line. -/
inductive Filler (passed : UInt8 → Bool) : Bytes → Prop
  | nil : Filler passed []
  | byte {b : UInt8} {s : Bytes} : passed b → Filler passed s → Filler passed (b :: s)
  | comment {text s : Bytes} {eol : UInt8} : (∀ b ∈ text, b ≠ 0x0A ∧ b ≠ 0x0D) →
      (eol = 0x0A ∨ eol = 0x0D) → Filler passed s → Filler passed (0x25 :: text ++ eol :: s)

/-- What follows an item starts with what is passed over, if anything follows. -/
def Apart (passed : UInt8 → Bool) (later : Bytes) : Prop :=
  ∀ b ∈ later.head?, passed b ∨ b = 0x25

/-- A hexadecimal digit in upper or lower case. -/
def hexDigit (upper : Bool) (n : UInt8) : UInt8 :=
  if n < 10 then 0x30 + n else (if upper then 0x41 else 0x61) + (n - 10)

/-- The decimal digits of a number without leading zeros; none for zero. -/
def decimalDigits (n : Nat) : Bytes := (Nat.digits 10 n).reverse.map fun d => UInt8.ofNat (0x30 + d)

/-- At least one digit, with any number of zeros in front. -/
inductive NaturalSpelled (n : Nat) : Bytes → Prop
  | digits (zeros : Nat) : List.replicate zeros 0x30 ++ decimalDigits n ≠ [] →
      NaturalSpelled n (List.replicate zeros 0x30 ++ decimalDigits n)

inductive IntegerSpelled : Int → Bytes → Prop
  | unsigned {n : Nat} {s : Bytes} : NaturalSpelled n s → IntegerSpelled n s
  | positive {n : Nat} {s : Bytes} : NaturalSpelled n s → IntegerSpelled n (0x2B :: s)
  | negative {n : Nat} {s : Bytes} : NaturalSpelled n s → IntegerSpelled (-n) (0x2D :: s)

/-- The bytes of a name, each by itself or as a code after a number sign. White space, delimiters
and the number sign need a code. -/
inductive NameSpelled : Bytes → Bytes → Prop
  | nil : NameSpelled [] []
  | plain {b : UInt8} {name s : Bytes} : isRegular b → b ≠ 0x23 → NameSpelled name s →
      NameSpelled (b :: name) (b :: s)
  | code {b : UInt8} {name s : Bytes} (upper upper' : Bool) : NameSpelled name s →
      NameSpelled (b :: name) (0x23 :: hexDigit upper (b / 16) :: hexDigit upper' (b % 16) :: s)

/-- Parentheses and the backslash. -/
def needsBackslash (b : UInt8) : Bool := b == 0x28 || b == 0x29 || b == 0x5C

/-- The text of a literal string. -/
def literalText (value : Bytes) : Bytes :=
  value.flatMap fun b => if needsBackslash b then [0x5C, b] else [b]

/-- Two hexadecimal digits for each byte, and white space before and after any of them. -/
inductive HexSpelled : Bytes → Bytes → Prop
  | nil : HexSpelled [] []
  | blank {b : UInt8} {value s : Bytes} : isBlank b → HexSpelled value s → HexSpelled value (b :: s)
  | byte {b : UInt8} {value gap s : Bytes} (upper upper' : Bool) : (∀ c ∈ gap, isBlank c) →
      HexSpelled value s →
      HexSpelled (b :: value) (hexDigit upper (b / 16) :: gap ++ hexDigit upper' (b % 16) :: s)

/-- What is written down: a value, or what stands between the brackets of an array or dictionary. -/
inductive Written (K : Type)
  | value (value : Operand K)
  | items (values : List (Operand K))
  | entries (entries : List (String × Operand K))

/-- The spellings of what is written down. A dictionary has each key once, and its entries may be
written in any order. -/
inductive Spelled : Written K → Bytes → Prop
  | null : Spelled (.value .null) (encodeUtf8 "null")
  | boolean (b : Bool) : Spelled (.value (.boolean b)) (encodeUtf8 (if b then "true" else "false"))
  | integer {i : Int} {s : Bytes} : minInteger ≤ i → i ≤ maxInteger → IntegerSpelled i s →
      Spelled (.value (.integer i)) s
  | name {text : String} {s : Bytes} : NameSpelled (encodeUtf8 text) s →
      Spelled (.value (.name text)) (0x2F :: s)
  | literal (bytes : Bytes) :
      Spelled (.value (.literal bytes)) (0x28 :: literalText bytes ++ [0x29])
  | hexadecimal {bytes s : Bytes} : HexSpelled bytes s →
      Spelled (.value (.hexadecimal bytes)) (0x3C :: s ++ [0x3E])
  | array {values : List (Operand K)} {s : Bytes} : Spelled (.items values) s →
      Spelled (.value (.array values)) (0x5B :: s ++ [0x5D])
  | dictionary {entries : List (String × Operand K)} {d : Dictionary K} {s : Bytes} :
      Spelled (.entries entries) s → d.Sorted → entries.Perm d →
      Spelled (.value (.dictionary d)) (0x3C :: 0x3C :: s ++ [0x3E, 0x3E])
  | noItems {gap : Bytes} : Filler isBlank gap → Spelled (.items []) gap
  | item {value : Operand K} {values : List (Operand K)} {gap s later : Bytes} :
      Filler isBlank gap → Spelled (.value value) s → Apart isBlank later →
      Spelled (.items values) later → Spelled (.items (value :: values)) (gap ++ s ++ later)
  | noEntries {gap : Bytes} : Filler isBlank gap → Spelled (.entries []) gap
  | entry {key : String} {value : Operand K} {entries : List (String × Operand K)}
      {gap k between s later : Bytes} :
      Filler isBlank gap → NameSpelled (encodeUtf8 key) k → Filler isBlank between → between ≠ [] →
      Spelled (.value value) s → Apart isBlank later → Spelled (.entries entries) later →
      Spelled (.entries ((key, value) :: entries)) (gap ++ 0x2F :: k ++ between ++ s ++ later)

/-- Visible ASCII characters that do not start like a number. -/
structure IsWord (text : String) : Prop where
  nonempty : encodeUtf8 text ≠ []
  graphic : ∀ b ∈ encodeUtf8 text, isGraphic b ∧ isRegular b
  start : ∀ b ∈ (encodeUtf8 text).head?, startsNumber b = false

/-- A word that is neither a constant nor the start of an image. -/
structure IsKeyword (text : String) : Prop extends IsWord text where
  free : text ∉ ["true", "false", "null", "BI"]

inductive TokenSpelled : Token K → Bytes → Prop
  | operand {value : Operand K} {s : Bytes} : Spelled (.value value) s →
      TokenSpelled (.operand value) s
  | operator {keyword : String} : IsKeyword keyword →
      TokenSpelled (.operator (.plain keyword)) (encodeUtf8 keyword)

/-- What is passed over outside of all brackets: white space and closing brackets of any kind. -/
def isSkipped (b : UInt8) : Bool := isBlank b || isStray b

/-- The spellings of a whole piece of content. -/
inductive ContentSpelled : List (Token K) → Bytes → Prop
  | nil {gap : Bytes} : Filler isSkipped gap → ContentSpelled [] gap
  | cons {token : Token K} {tokens : List (Token K)} {gap s later : Bytes} :
      Filler isSkipped gap → TokenSpelled token s → Apart isSkipped later →
      ContentSpelled tokens later → ContentSpelled (token :: tokens) (gap ++ s ++ later)

end Content

end PdfContent
