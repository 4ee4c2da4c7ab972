import Mathlib.Data.Nat.Digits.Lemmas
import Mathlib.Tactic.IntervalCases
import PdfContent.Proofs.Encoding
import PdfContent.Proofs.Spelling

/-!
# Reading what has no parts

Names, strings and integers are read back from every way to spell them, whatever follows, as long as
no word goes on there. Each reader takes the bytes of its spelling one at a time, so each proof is
an induction on the spelling.
-/

namespace PdfContent.Content

open Text (encodeUtf8 decodeUtf8 decodeUtf8_encodeUtf8)

variable {K : Type} {s rest : Bytes}

/-! ### Words and what stands between them -/

/-- No word goes on in what follows. -/
def Ends (rest : Bytes) : Prop := ∀ b ∈ rest.head?, isRegular b = false

theorem Ends.cons {b : UInt8} (b_ends : isRegular b = false) (rest : Bytes) : Ends (b :: rest) := by
  intro c among
  cases among
  exact b_ends

theorem Ends.append {later closing : Bytes} (ends : Ends later) (closes : Ends closing) :
    Ends (later ++ closing) := by
  cases later with
  | nil => exact closes
  | cons b later => exact ends

theorem word_append (regular : ∀ b ∈ s, isRegular b) (ends : Ends rest) : word (s ++ rest) = s := by
  rw [word, List.takeWhile_append_of_pos regular]
  cases rest with
  | nil => simp
  | cons b rest => rw [List.takeWhile_cons_of_neg (by simp [ends b rfl]), List.append_nil]

theorem afterWord_append (regular : ∀ b ∈ s, isRegular b) (ends : Ends rest) :
    afterWord (s ++ rest) = rest := by
  rw [afterWord, List.dropWhile_append_of_pos regular]
  cases rest with
  | nil => rfl
  | cons b rest => rw [List.dropWhile_cons_of_neg (by simp [ends b rfl])]

theorem skipBlank_of_isBlank {b : UInt8} (blank : isBlank b) (s : Bytes) :
    skipBlank (b :: s) = skipBlank s := by
  rw [skipBlank, if_pos blank]

theorem skipBlank_cons {b : UInt8} (blank : isBlank b = false) (comment : b ≠ 0x25) (s : Bytes) :
    skipBlank (b :: s) = b :: s := by
  rw [skipBlank, if_neg (by simp [blank]), if_neg (by simpa using comment)]

theorem skipBlank_comment {text : Bytes} {eol : UInt8} (inside : ∀ b ∈ text, b ≠ 0x0A ∧ b ≠ 0x0D)
    (ends : eol = 0x0A ∨ eol = 0x0D) (s : Bytes) :
    skipBlank (0x25 :: text ++ eol :: s) = skipBlank s := by
  have stops : afterComment (text ++ eol :: s) = eol :: s := by
    rw [afterComment, List.dropWhile_append_of_pos (by simpa using inside),
      List.dropWhile_cons_of_neg (by rcases ends with rfl | rfl <;> decide)]
  rw [List.cons_append, skipBlank, if_neg (by decide), if_pos (by decide), stops,
    skipBlank_of_isBlank (by rcases ends with rfl | rfl <;> decide)]

theorem skipBlank_append {gap : Bytes} (filler : Filler isBlank gap) (s : Bytes) :
    skipBlank (gap ++ s) = skipBlank s := by
  induction filler with
  | nil => rfl
  | byte blank _ ih => rw [List.cons_append, skipBlank_of_isBlank blank, ih]
  | @comment text s' eol inside ends _ ih =>
      have shape : 0x25 :: text ++ eol :: s' ++ s = 0x25 :: text ++ eol :: (s' ++ s) := by simp
      rw [shape, skipBlank_comment inside ends, ih]

/-! ### Digits -/

/-- A fact about digits that holds of each of them. -/
theorem lt_sixteen {P : UInt8 → Prop} (all : ∀ n : Fin 16, P (UInt8.ofNat n)) {n : UInt8}
    (small : n < 16) : P n := by
  have := all ⟨n.toNat, UInt8.lt_iff_toNat_lt.mp small⟩
  rwa [UInt8.ofNat_toNat] at this

theorem hexValue?_hexDigit (upper : Bool) {n : UInt8} (small : n < 16) :
    hexValue? (hexDigit upper n) = some n :=
  lt_sixteen (P := fun n => hexValue? (hexDigit upper n) = some n) (by cases upper <;> decide) small

theorem isRegular_hexDigit (upper : Bool) {n : UInt8} (small : n < 16) :
    isRegular (hexDigit upper n) :=
  lt_sixteen (P := fun n => isRegular (hexDigit upper n)) (by cases upper <;> decide) small

theorem div_lt_sixteen (b : UInt8) : b / 16 < 16 := by
  rw [UInt8.lt_iff_toNat_lt, UInt8.toNat_div]
  have := b.toNat_lt
  simp
  omega

theorem mod_lt_sixteen (b : UInt8) : b % 16 < 16 := by
  rw [UInt8.lt_iff_toNat_lt, UInt8.toNat_mod]
  exact Nat.mod_lt _ (by decide)

/-- The two digits of a byte. -/
theorem digits_of_byte (b : UInt8) : b / 16 * 16 + b % 16 = b := by
  apply UInt8.toNat_inj.mp
  have := b.toNat_lt
  simp
  omega

/-! ### Names -/

theorem NameSpelled.isRegular {name : Bytes} (spelled : NameSpelled name s) :
    ∀ b ∈ s, isRegular b := by
  induction spelled with
  | nil => simp
  | plain regular _ _ ih => exact List.forall_mem_cons.mpr ⟨regular, ih⟩
  | code upper upper' _ ih =>
      simp only [List.forall_mem_cons]
      exact ⟨by decide, isRegular_hexDigit upper (div_lt_sixteen _),
        isRegular_hexDigit upper' (mod_lt_sixteen _), ih⟩

theorem nameBytes_cons {b : UInt8} (plain : b ≠ 0x23) (s : Bytes) :
    nameBytes (b :: s) = b :: nameBytes s := by
  cases s with
  | nil => rfl
  | cons c s =>
      cases s with
      | nil => rfl
      | cons d s => rw [nameBytes, if_neg (by simpa using plain)]

theorem nameBytes_of_spelled {name : Bytes} (spelled : NameSpelled name s) :
    nameBytes s = name := by
  induction spelled with
  | nil => rfl
  | plain _ plain _ ih => rw [nameBytes_cons plain, ih]
  | code upper upper' _ ih =>
      rw [nameBytes, if_pos (by decide), hexValue?_hexDigit upper (div_lt_sixteen _),
        hexValue?_hexDigit upper' (mod_lt_sixteen _)]
      simp only [digits_of_byte, ih]

theorem nameText_of_spelled {text : String} (spelled : NameSpelled (encodeUtf8 text) s) :
    nameText s = text := by
  rw [nameText, nameBytes_of_spelled spelled, decodeUtf8_encodeUtf8]

/-! ### Strings -/

theorem literal?_plain {b : UInt8} (plain : ¬needsBackslash b) (depth : Nat) (s : Bytes) :
    literal? depth (b :: s) = (literal? depth s).map fun r => (b :: r.1, r.2) := by
  simp only [needsBackslash, Bool.or_eq_true, not_or] at plain
  obtain ⟨⟨opens, closes⟩, escapes⟩ := plain
  rw [literal?.eq_def]
  exact (if_neg opens).trans ((if_neg closes).trans (if_neg escapes))

theorem literal?_escaped {b : UInt8} (special : needsBackslash b) (depth : Nat) (s : Bytes) :
    literal? depth (0x5C :: b :: s) = (literal? depth s).map fun r => (b :: r.1, r.2) := by
  have itself : escape b s = ([b], s) := by
    simp only [needsBackslash, Bool.or_eq_true, beq_iff_eq] at special
    rcases special with (rfl | rfl) | rfl <;> rfl
  rw [literal?.eq_def]
  simp only [itself, List.singleton_append]
  rfl

theorem literal?_literalText (value rest : Bytes) :
    literal? 0 (literalText value ++ 0x29 :: rest) = some (value, rest) := by
  induction value with
  | nil =>
      rw [literalText, List.flatMap_nil, List.nil_append, literal?.eq_def]
      rfl
  | cons b value ih =>
      have shape : literalText (b :: value) = (if needsBackslash b then [0x5C, b] else [b]) ++
          literalText value := rfl
      rw [shape]
      split
      case isTrue special =>
        rw [List.append_assoc, List.cons_append, List.singleton_append, literal?_escaped special,
          ih]
        rfl
      case isFalse plain =>
        rw [List.append_assoc, List.singleton_append, literal?_plain plain, ih]
        rfl

theorem hexBody_append (digits : ∀ b ∈ s, b ≠ 0x3E) (rest : Bytes) :
    hexBody (s ++ 0x3E :: rest) = s := by
  rw [hexBody, List.takeWhile_append_of_pos (by simpa using digits),
    List.takeWhile_cons_of_neg (by decide), List.append_nil]

theorem afterHex_append (digits : ∀ b ∈ s, b ≠ 0x3E) (rest : Bytes) :
    afterHex (s ++ 0x3E :: rest) = rest := by
  rw [afterHex, List.dropWhile_append_of_pos (by simpa using digits),
    List.dropWhile_cons_of_neg (by decide), List.drop_one, List.tail_cons]

theorem hexValue?_of_isBlank {b : UInt8} (blank : isBlank b) : hexValue? b = none := by
  simp only [isBlank, Bool.or_eq_true, beq_iff_eq] at blank
  rcases blank with ((((rfl | rfl) | rfl) | rfl) | rfl) | rfl <;> rfl

/-- There are no delimiters in a hexadecimal string. -/
theorem HexSpelled.isDelimiter {value : Bytes} (spelled : HexSpelled value s) :
    ∀ b ∈ s, isDelimiter b = false := by
  have of_isBlank (b : UInt8) (blank : isBlank b) : Content.isDelimiter b = false := by
    simp only [isBlank, Bool.or_eq_true, beq_iff_eq] at blank
    rcases blank with ((((rfl | rfl) | rfl) | rfl) | rfl) | rfl <;> rfl
  have of_hexDigit (upper : Bool) {n : UInt8} (small : n < 16) :
      Content.isDelimiter (hexDigit upper n) = false := by
    have regular := isRegular_hexDigit upper small
    simp only [Content.isRegular, Bool.and_eq_true, Bool.not_eq_true'] at regular
    exact regular.2
  induction spelled with
  | nil => simp
  | blank blank _ ih => exact List.forall_mem_cons.mpr ⟨of_isBlank _ blank, ih⟩
  | byte upper upper' blanks _ ih =>
      simp only [List.cons_append, List.forall_mem_cons, List.forall_mem_append]
      exact ⟨of_hexDigit upper (div_lt_sixteen _), fun c among => of_isBlank c (blanks c among),
        of_hexDigit upper' (mod_lt_sixteen _), ih⟩

theorem HexSpelled.ne {value : Bytes} (spelled : HexSpelled value s) {c : UInt8}
    (delimiter : Content.isDelimiter c) : ∀ b ∈ s, b ≠ c := by
  rintro b among rfl
  exact absurd delimiter (by simp [spelled.isDelimiter b among])

/-- The digits of a hexadecimal string, and nothing else, count. -/
theorem pairDigits_of_spelled {value : Bytes} (spelled : HexSpelled value s) :
    pairDigits (s.filterMap hexValue?) = value := by
  induction spelled with
  | nil => rfl
  | blank blank _ ih => rw [List.filterMap_cons_none (hexValue?_of_isBlank blank), ih]
  | @byte b value gap s upper upper' blanks _ ih =>
      have skipped : gap.filterMap hexValue? = [] :=
        List.filterMap_eq_nil_iff.mpr fun c among => hexValue?_of_isBlank (blanks c among)
      rw [List.cons_append, List.filterMap_cons_some (hexValue?_hexDigit upper (div_lt_sixteen _)),
        List.filterMap_append, skipped, List.nil_append,
        List.filterMap_cons_some (hexValue?_hexDigit upper' (mod_lt_sixteen _)), pairDigits,
        digits_of_byte, ih]

theorem hexString_of_spelled {value : Bytes} (spelled : HexSpelled value s) (rest : Bytes) :
    hexString (s ++ 0x3E :: rest) = value := by
  rw [hexString, hexBody_append (spelled.ne rfl), pairDigits_of_spelled spelled]

/-! ### Integers -/

theorem isRegular_of_startsNumber {b : UInt8} (starts : startsNumber b) : isRegular b := by
  by_contra irregular
  simp only [isRegular, isBlank, isDelimiter, Bool.and_eq_true, Bool.not_eq_true',
    Bool.or_eq_false_iff, beq_eq_false_iff_ne, not_and_or, not_not] at irregular
  casesm* _ ∨ _ <;> subst b <;> cases starts

theorem isDigit_ofNat {d : Nat} (small : d < 10) : isDigit (UInt8.ofNat (0x30 + d)) := by
  interval_cases d <;> rfl

theorem NaturalSpelled.isDigit {n : Nat} (spelled : NaturalSpelled n s) : ∀ b ∈ s, isDigit b := by
  obtain ⟨zeros, _⟩ := spelled
  intro b among
  rcases List.mem_append.mp among with zero | digit
  · rw [List.eq_of_mem_replicate zero]
    decide
  · obtain ⟨d, place, rfl⟩ := List.mem_map.mp digit
    exact isDigit_ofNat (Nat.digits_lt_base (by decide) (List.mem_reverse.mp place))

theorem digitsValue_decimalDigits (n : Nat) : digitsValue (decimalDigits n) = n := by
  have digits : ∀ l : List Nat, (∀ d ∈ l, d < 10) →
      digitsValue (l.reverse.map fun d => UInt8.ofNat (0x30 + d)) = Nat.ofDigits 10 l := by
    intro l small
    rw [digitsValue, List.foldl_map, List.foldl_reverse]
    induction l with
    | nil => rfl
    | cons d l ih =>
        obtain ⟨first, later⟩ := List.forall_mem_cons.mp small
        have same := UInt8.toNat_ofNat_of_lt' (show 0x30 + d < 256 by omega)
        rw [List.foldr_cons, ih later, same, Nat.ofDigits_cons]
        omega
  rw [decimalDigits, digits _ fun d among => Nat.digits_lt_base (by decide) among,
    Nat.ofDigits_digits]

theorem NaturalSpelled.digitsValue {n : Nat} (spelled : NaturalSpelled n s) :
    digitsValue s = n := by
  obtain ⟨zeros, _⟩ := spelled
  have nothing : Content.digitsValue (List.replicate zeros 0x30) = 0 := by
    clear * -
    induction zeros with
    | zero => rfl
    | succ zeros ih => exact ih
  rw [Content.digitsValue, List.foldl_append, ← Content.digitsValue, nothing]
  exact digitsValue_decimalDigits n

/-- No number goes on where no word does. -/
theorem numberBody_append (digits : ∀ b ∈ s, isDigit b) (ends : Ends rest) :
    numberBody false (s ++ rest) = s := by
  induction s with
  | nil =>
      cases rest with
      | nil => rfl
      | cons b rest =>
          have stops : startsNumber b = false := by
            by_contra starts
            exact absurd (isRegular_of_startsNumber (by simpa using starts)) (by simp [ends b rfl])
          simp only [startsNumber, Bool.or_eq_false_iff] at stops
          simp [numberBody, stops]
  | cons b s ih =>
      obtain ⟨first, later⟩ := List.forall_mem_cons.mp digits
      rw [List.cons_append, numberBody, if_pos first, ih later]

theorem isSign_of_isDigit {b : UInt8} (digit : isDigit b) : isSign b = false := by
  by_contra sign
  simp only [isSign, Bool.not_eq_false, Bool.or_eq_true, beq_iff_eq] at sign
  rcases sign with rfl | rfl <;> cases digit

theorem NaturalSpelled.ne_nil {n : Nat} (spelled : NaturalSpelled n s) : s ≠ [] := by
  obtain ⟨_, some_digit⟩ := spelled
  exact some_digit

/-- An integer is spelled with a sign or none, and digits. -/
theorem IntegerSpelled.exists_sign {i : Int} (spelled : IntegerSpelled i s) :
    ∃ n sign digits, s = sign ++ digits ∧ NaturalSpelled n digits ∧
      (∀ rest, signOf (s ++ rest) = sign) ∧ i = if sign == [0x2D] then -(n : Int) else n := by
  cases spelled with
  | unsigned natural =>
      refine ⟨_, [], s, rfl, natural, fun rest => ?_, rfl⟩
      obtain ⟨b, s, rfl⟩ := List.exists_cons_of_ne_nil natural.ne_nil
      rw [List.cons_append, signOf, isSign_of_isDigit (natural.isDigit b (List.mem_cons_self ..))]
      rfl
  | positive natural => exact ⟨_, [0x2B], _, rfl, natural, fun _ => rfl, rfl⟩
  | negative natural => exact ⟨_, [0x2D], _, rfl, natural, fun _ => rfl, rfl⟩

theorem IntegerSpelled.exists_cons {i : Int} (spelled : IntegerSpelled i s) :
    ∃ b t, s = b :: t ∧ startsNumber b := by
  cases spelled with
  | unsigned natural =>
      obtain ⟨b, t, rfl⟩ := List.exists_cons_of_ne_nil natural.ne_nil
      exact ⟨b, t, rfl, by simp [startsNumber, natural.isDigit b (List.mem_cons_self ..)]⟩
  | positive => exact ⟨0x2B, _, rfl, rfl⟩
  | negative => exact ⟨0x2D, _, rfl, rfl⟩

theorem numberText_of_spelled {i : Int} (spelled : IntegerSpelled i s) (ends : Ends rest) :
    numberText (s ++ rest) = s := by
  obtain ⟨n, sign, digits, shape, natural, signed, _⟩ := spelled.exists_sign
  rw [numberText, signed]
  rw [shape, List.append_assoc, List.drop_left, numberBody_append natural.isDigit ends]

theorem afterNumber_of_spelled {i : Int} (spelled : IntegerSpelled i s) (ends : Ends rest) :
    afterNumber (s ++ rest) = rest := by
  rw [afterNumber, numberText_of_spelled spelled ends, List.drop_left]

theorem numberValue?_of_spelled [Scalar K] {i : Int} (spelled : IntegerSpelled i s)
    (least : minInteger ≤ i) (greatest : i ≤ maxInteger) :
    numberValue? (K := K) s = some (.integer i) := by
  obtain ⟨n, sign, digits, shape, natural, signed, value⟩ := spelled.exists_sign
  have signed : signOf s = sign := by simpa using signed []
  have body : s.drop sign.length = digits := by rw [shape, List.drop_left]
  have whole : digits.filter isDigit = digits := List.filter_eq_self.mpr natural.isDigit
  have noPoint : digits.contains 0x2E = false := by
    simp only [List.contains_eq_mem, decide_eq_false_iff_not]
    intro point
    exact absurd (natural.isDigit _ point) (by decide)
  have given : digits.isEmpty = false := by simpa using natural.ne_nil
  simp only [numberValue?, signed, body, whole, noPoint, given, natural.digitsValue, ← value]
  simp [least, greatest]

end PdfContent.Content
