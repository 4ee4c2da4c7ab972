import PdfContent.Content.Bytes
import PdfContent.Content.Operand

/-!
# Strings, names and numbers

How the simple operands are spelled. Each reader takes the bytes after the opening one and gives the
value together with what is left; the lemmas beside them say that nothing is put back.
-/

namespace PdfContent.Content

/-- The byte that an escape letter stands for; any other byte stands for itself. -/
def escapeValue (b : UInt8) : UInt8 :=
  if b == 0x6E then 0x0A
  else if b == 0x72 then 0x0D
  else if b == 0x74 then 0x09
  else if b == 0x62 then 0x08
  else if b == 0x66 then 0x0C
  else b

/-- Up to `limit` octal digits after the value `n`, and what is left. -/
def octal (n : Nat) : (limit : Nat) → Bytes → Nat × Bytes
  | limit + 1, b :: rest =>
    if isOctalDigit b then octal (n * 8 + (b.toNat - 0x30)) limit rest else (n, b :: rest)
  | _, s => (n, s)

theorem length_octal_le (n limit : Nat) (s : Bytes) : (octal n limit s).2.length ≤ s.length := by
  induction limit generalizing n s with
  | zero => simp [octal]
  | succ limit ih =>
    cases s with
    | nil => simp [octal]
    | cons b rest =>
      rw [octal]
      split
      · exact Nat.le_succ_of_le (ih _ _)
      · exact Nat.le_refl _

/-- The bytes that the text after a backslash stands for, and what is left. A line end is dropped, one
to three octal digits are a code, and any other byte is an escape letter or itself. -/
def escape : (b : UInt8) → (rest : Bytes) → Bytes × Bytes
  | b, rest =>
    if b == 0x0D then
      match rest with
      | 0x0A :: after => ([], after)
      | _ => ([], rest)
    else if b == 0x0A then ([], rest)
    else if isOctalDigit b then
      let (code, after) := octal (b.toNat - 0x30) 2 rest
      ([UInt8.ofNat code], after)
    else ([escapeValue b], rest)

theorem length_escape_le (b : UInt8) (rest : Bytes) : (escape b rest).2.length ≤ rest.length := by
  fun_cases escape b rest with
  | case1 => simp
  | case2 => exact Nat.le_refl _
  | case3 => exact Nat.le_refl _
  | case4 _ _ _ _ _ _ _ h =>
    have := length_octal_le (b.toNat - 0x30) 2 rest
    rwa [h] at this
  | case5 => exact Nat.le_refl _

/-- The value of a literal string inside `depth` more pairs of parentheses, and what follows its
closing parenthesis; none if it is not closed. -/
def literal? (depth : Nat) : Bytes → Option (Bytes × Bytes)
  | [] => none
  | b :: rest =>
    if b == 0x28 then (literal? (depth + 1) rest).map fun r => (b :: r.1, r.2)
    else if b == 0x29 then
      match depth with
      | 0 => some ([], rest)
      | depth + 1 => (literal? depth rest).map fun r => (b :: r.1, r.2)
    else if b == 0x5C then
      match rest with
      | [] => none
      | c :: rest => (literal? depth (escape c rest).2).map fun r => ((escape c rest).1 ++ r.1, r.2)
    else (literal? depth rest).map fun r => (b :: r.1, r.2)
termination_by s => s.length
decreasing_by
  · simp
  · simp
  · have := length_escape_le c rest
    simp; omega
  · simp

theorem length_of_literal? {depth : Nat} {s value rest : Bytes}
    (h : literal? depth s = some (value, rest)) : rest.length < s.length := by
  fun_induction literal? depth s generalizing value with
  | case1 => simp at h
  | case2 depth b tail _ ih =>
    obtain ⟨⟨v, t⟩, hr, he⟩ := Option.map_eq_some_iff.1 h
    obtain ⟨rfl, rfl⟩ := Prod.mk.inj he
    have : t.length < tail.length := ih hr
    simp; omega
  | case3 => simp_all
  | case4 b tail _ _ depth ih =>
    obtain ⟨⟨v, t⟩, hr, he⟩ := Option.map_eq_some_iff.1 h
    obtain ⟨rfl, rfl⟩ := Prod.mk.inj he
    have : t.length < tail.length := ih hr
    simp; omega
  | case5 => simp at h
  | case6 depth b _ _ _ c tail ih =>
    obtain ⟨⟨v, t⟩, hr, he⟩ := Option.map_eq_some_iff.1 h
    obtain ⟨rfl, rfl⟩ := Prod.mk.inj he
    have : t.length < (escape c tail).2.length := ih hr
    have := length_escape_le c tail
    simp; omega
  | case7 depth b tail _ _ _ ih =>
    obtain ⟨⟨v, t⟩, hr, he⟩ := Option.map_eq_some_iff.1 h
    obtain ⟨rfl, rfl⟩ := Prod.mk.inj he
    have : t.length < tail.length := ih hr
    simp; omega

/-- Digits in pairs; a last single one counts as if a zero followed. -/
def pairDigits : Bytes → Bytes
  | [] => []
  | [hi] => [hi * 16]
  | hi :: lo :: rest => (hi * 16 + lo) :: pairDigits rest

/-- Everything before the closing bracket of a hexadecimal string. The end of the content closes it,
too. -/
def hexBody (s : Bytes) : Bytes := s.takeWhile fun b => b != 0x3E

/-- What follows the closing bracket of a hexadecimal string. -/
def afterHex (s : Bytes) : Bytes := (s.dropWhile fun b => b != 0x3E).drop 1

/-- The value of a hexadecimal string; bytes that are no digits are passed over. -/
def hexString (s : Bytes) : Bytes := pairDigits ((hexBody s).filterMap hexValue?)

theorem length_afterHex_le (s : Bytes) : (afterHex s).length ≤ s.length := by
  have := length_dropWhile_le (fun b => b != 0x3E) s
  simp [afterHex]; omega

/-- The bytes of a name: `#` and two hexadecimal digits are one byte, anything else is itself. -/
def nameBytes : Bytes → Bytes
  | b :: hi :: lo :: rest =>
    if b == 0x23 then
      match hexValue? hi, hexValue? lo with
      | some h, some l => (h * 16 + l) :: nameBytes rest
      | _, _ => b :: nameBytes (hi :: lo :: rest)
    else b :: nameBytes (hi :: lo :: rest)
  | s => s

/-- The name that a word spells. -/
def nameText (s : Bytes) : String := Text.decodeUtf8 (nameBytes s)

/-- The leading digits, and whether a point stands among them; a second point ends the number. -/
def numberBody : (pointSeen : Bool) → Bytes → Bytes
  | _, [] => []
  | pointSeen, b :: rest =>
    if isDigit b then b :: numberBody pointSeen rest
    else if b == 0x2E && !pointSeen then b :: numberBody true rest
    else []

/-- A sign if there is one. -/
def signOf : Bytes → Bytes
  | b :: _ => if isSign b then [b] else []
  | [] => []

/-- The leading number, sign included. -/
def numberText (s : Bytes) : Bytes := signOf s ++ numberBody false (s.drop (signOf s).length)

/-- What follows the leading number. -/
def afterNumber (s : Bytes) : Bytes := s.drop (numberText s).length

theorem length_afterNumber_lt {b : UInt8} (h : startsNumber b) (rest : Bytes) :
    (afterNumber (b :: rest)).length < rest.length + 1 := by
  have hpos : 0 < (numberText (b :: rest)).length := by
    by_cases hs : isSign b
    · simp [numberText, signOf, hs]
    · have h' : isDigit b ∨ b = 0x2E := by simpa [startsNumber, hs] using h
      have : numberText (b :: rest) = numberBody false (b :: rest) := by simp [numberText, signOf, hs]
      rw [this, numberBody]
      rcases h' with hd | hp
      · simp [hd]
      · split <;> simp [hp]
  simp [afterNumber]; omega

/-- The number that decimal digits spell. -/
def digitsValue (s : Bytes) : Nat := s.foldl (fun n b => n * 10 + (b.toNat - 0x30)) 0

variable {K : Type} [Scalar K]

/-- The value of a number's text: an integer if there is no point and it is in range, else a real
number. Without a digit it has no value. -/
def numberValue? (text : Bytes) : Option (Operand K) :=
  let sign := signOf text
  let body := text.drop sign.length
  let negative := sign == [0x2D]
  let digits := body.filter isDigit
  let magnitude := digitsValue digits
  if digits.isEmpty then none
  else if body.contains 0x2E then
    some (.real (Scalar.ofDecimal negative magnitude (body.dropWhile fun b => b != 0x2E).tail.length))
  else
    let value : Int := if negative then -(magnitude : Int) else magnitude
    if minInteger ≤ value && value ≤ maxInteger then some (.integer value)
    else some (.real (Scalar.ofDecimal negative magnitude 0))

end PdfContent.Content
