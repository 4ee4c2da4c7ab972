import PdfContent.Proofs.MappedText
import PdfContent.Text.Tables

/-!
# Targets that count on

The targets of a range of codes count on from the first one. A string is determined by its length and
its number, so it is enough to know what counting does to the number: it goes up by one, and from the
greatest number of its length back to zero. Through how many bytes a carry runs makes no difference.

Only the sum of a byte and a carry is ever formed. Offsets into a range are less than `2 ^ 32`, so
these sums fit in a word of 64 bits, and counting in words gives the same strings.
-/

namespace PdfContent

/-- The second string is the next one of the same length; after the greatest one comes zero. -/
structure FollowedBy (s t : Bytes) : Prop where
  length : t.length = s.length
  value : bigEndianValue t = (bigEndianValue s + 1) % 256 ^ s.length

namespace CMap

variable {K : Type} {s t : Bytes}

/-! ### Counting on and counting further -/

theorem eq_increment_iff (offset : Nat) :
    t = increment s offset ↔
      t.length = s.length ∧ bigEndianValue t = (bigEndianValue s + offset) % 256 ^ s.length := by
  constructor
  · rintro rfl
    exact ⟨length_increment s offset, bigEndianValue_increment s offset⟩
  · rintro ⟨length, value⟩
    exact bigEndianValue_inj (by rw [length, length_increment])
      (by rw [value, bigEndianValue_increment])

theorem increment_zero (s : Bytes) : increment s 0 = s := by
  have nothing (l : Bytes) : incrementReversed l 0 = l := by cases l <;> rfl
  rw [increment, nothing, List.reverse_reverse]

/-- What a carry drops at the front the first time is dropped the second time as well. -/
theorem increment_increment (s : Bytes) (k m : Nat) :
    increment (increment s k) m = increment s (k + m) := by
  rw [eq_increment_iff, length_increment, length_increment, bigEndianValue_increment,
    bigEndianValue_increment, length_increment, Nat.mod_add_mod, Nat.add_assoc]
  exact ⟨rfl, rfl⟩

theorem followedBy_increment (s : Bytes) (k : Nat) :
    FollowedBy (increment s k) (increment s (k + 1)) := by
  obtain ⟨length, value⟩ := (eq_increment_iff 1).mp (increment_increment s k 1).symm
  exact ⟨length, value⟩

/-! ### Counting in words -/

/-- Adds `carry` to the number of the reversed bytes. The sums are words and wrap around. -/
def incrementWordReversed : Bytes → (carry : UInt64) → Bytes
  | [], _ => []
  | b :: rest, carry =>
    if carry == 0 then b :: rest
    else ((b.toUInt64 + carry) &&& 0xFF).toUInt8 ::
      incrementWordReversed rest ((b.toUInt64 + carry) >>> 8)

/-- The string `offset` further, counted in words. -/
def incrementWord (s : Bytes) (offset : UInt64) : Bytes :=
  (incrementWordReversed s.reverse offset).reverse

theorem toUInt8_low (n : UInt64) : (n &&& 0xFF).toUInt8 = UInt8.ofNat n.toNat := by
  have mask : (0xFF : UInt64).toNat = 2 ^ 8 - 1 := rfl
  apply UInt8.toNat_inj.mp
  rw [UInt64.toNat_toUInt8, UInt64.toNat_and, mask, Nat.and_two_pow_sub_one_eq_mod, Nat.mod_mod,
    UInt8.toNat_ofNat']

theorem toNat_high (n : UInt64) : (n >>> 8).toNat = n.toNat / 256 := by
  rw [UInt64.toNat_shiftRight, Nat.shiftRight_eq_div_pow]
  rfl

/-- A sum that fits leaves a carry with which the next sum fits as well. -/
theorem incrementWordReversed_eq (s : Bytes) {carry : UInt64} (fits : carry.toNat + 255 < 2 ^ 64) :
    incrementWordReversed s carry = incrementReversed s carry.toNat := by
  induction s generalizing carry with
  | nil => rfl
  | cons b rest ih =>
      have byte := b.toNat_lt
      -- the only place where a word could wrap around
      have sum : (b.toUInt64 + carry).toNat = b.toNat + carry.toNat := by
        rw [UInt64.toNat_add, UInt8.toNat_toUInt64, Nat.mod_eq_of_lt (by omega)]
      have high : ((b.toUInt64 + carry) >>> 8).toNat = (b.toNat + carry.toNat) / 256 := by
        rw [toNat_high, sum]
      have nothing : (carry == 0) = (carry.toNat == 0) := by
        rw [Bool.eq_iff_iff, beq_iff_eq, beq_iff_eq, ← UInt64.toNat_inj]
        rfl
      rw [incrementWordReversed, incrementReversed, nothing, toUInt8_low, sum, ih (by omega), high]

theorem incrementWord_eq (s : Bytes) {offset : UInt64} (fits : offset.toNat + 255 < 2 ^ 64) :
    incrementWord s offset = increment s offset.toNat := by
  rw [incrementWord, incrementWordReversed_eq _ fits, increment]

theorem length_incrementWord (s : Bytes) {offset : UInt64} (fits : offset.toNat + 255 < 2 ^ 64) :
    (incrementWord s offset).length = s.length := by
  rw [incrementWord_eq s fits, length_increment]

theorem bigEndianValue_incrementWord (s : Bytes) {offset : UInt64}
    (fits : offset.toNat + 255 < 2 ^ 64) :
    bigEndianValue (incrementWord s offset) =
      (bigEndianValue s + offset.toNat) % 256 ^ s.length := by
  rw [incrementWord_eq s fits, bigEndianValue_increment]

theorem incrementWord_incrementWord (s : Bytes) {k m : UInt64}
    (fits : k.toNat + m.toNat + 255 < 2 ^ 64) :
    incrementWord (incrementWord s k) m = incrementWord s (k + m) := by
  have sum : (k + m).toNat = k.toNat + m.toNat := by
    rw [UInt64.toNat_add, Nat.mod_eq_of_lt (by omega)]
  rw [incrementWord_eq s (by omega), incrementWord_eq _ (by omega), incrementWord_eq s (by omega),
    increment_increment, sum]

/-! ### The targets of a range -/

theorem offset_lt_of_inRange {low high : Operand K} {code : UInt32} {k : Nat}
    (within : InRange low high code k) : k < 2 ^ 32 := by
  obtain ⟨_, _, -, -, value, -⟩ := within
  have := code.toNat_lt
  omega

/-- The last entry that gives a code some text decides. -/
theorem text?_of_lastGiving [Scalar K] [Text.Decoder] {data : Bytes} {m : CMap} {code : UInt32} {text : String}
    (accepted : parse K data = .ok m)
    (last : LastGiving (fun e => e.GivesText code) (textEntries (Content.callsOf (K := K) data)) text) :
    m.text? code = some text := by
  have lookup : m.mappedText? code =
      (textEntries (Content.callsOf (K := K) data)).reverse.findSome? (MapEntry.textAt? code) := by
    rw [mappedText?, (collects_parse accepted).texts, empty, List.nil_append,
      ← List.filterMap_reverse, findSome?_filterMap]
    rfl
  have found := (findSome?_reverse_iff_lastGiving (MapEntry.textAt?_eq_some_iff code)).mpr last
  rw [text?, lookup, found, Option.some_or]

/-- Counting on keeps the length of a string and adds to its number, modulo the numbers of that length,
and counting on twice adds up. This holds of counting in words while no sum can leave the word, and
of counting without a bound, which is the same there. So the codes of a range have as their texts
those of the first target, of the string that follows it, and so on, unless a later entry gives them a
text. -/
theorem increment_consecutive (K : Type) [Scalar K] [Text.Decoder] :
    (∀ (s : Bytes) (offset : UInt64), offset.toNat + 255 < 2 ^ 64 →
      (incrementWord s offset).length = s.length ∧
      bigEndianValue (incrementWord s offset) =
        (bigEndianValue s + offset.toNat) % 256 ^ s.length) ∧
    (∀ (s : Bytes) (k m : UInt64), k.toNat + m.toNat + 255 < 2 ^ 64 →
      incrementWord (incrementWord s k) m = incrementWord s (k + m)) ∧
    (∀ (s : Bytes) (offset : Nat), (increment s offset).length = s.length ∧
      bigEndianValue (increment s offset) = (bigEndianValue s + offset) % 256 ^ s.length) ∧
    (∀ (s : Bytes) (k m : Nat), increment (increment s k) m = increment s (k + m)) ∧
    (∀ (s : Bytes) (offset : UInt64), offset.toNat + 255 < 2 ^ 64 →
      incrementWord s offset = increment s offset.toNat) ∧
    ∀ data m, parse K data = .ok m →
      ∀ before low high target after start,
        textEntries (Content.callsOf (K := K) data) = before ++ .range low high target :: after →
        target.bytes? = some start →
        ∃ targets : Nat → Bytes, targets 0 = start ∧
          (∀ k, FollowedBy (targets k) (targets (k + 1))) ∧
          ∀ code k, InRange low high code k → k < 2 ^ 32 ∧
            ((∀ e ∈ after, ∀ text, ¬e.GivesText code text) →
              m.text? code = some (targetText (targets k))) := by
  refine ⟨fun s offset fits => ⟨length_incrementWord s fits, bigEndianValue_incrementWord s fits⟩,
    fun s k m fits => incrementWord_incrementWord s fits,
    fun s offset => (eq_increment_iff offset).mp rfl, increment_increment,
    fun s offset fits => incrementWord_eq s fits, ?_⟩
  intro data m accepted before low high target after start shape isString
  refine ⟨increment start, increment_zero start, followedBy_increment start, ?_⟩
  intro code k within
  refine ⟨offset_lt_of_inRange within, fun nothing => text?_of_lastGiving accepted ?_⟩
  have gives : (MapEntry.range low high target).GivesText code (targetText (increment start k)) :=
    .consecutive within isString (length_increment start k) (bigEndianValue_increment start k)
      (targetText_eq_iff.mp rfl)
  exact ⟨before, _, after, shape, gives, nothing⟩

attribute [local instance] Text.byTables

/-- A carry through two bytes, alone and in a range. -/
theorem increment_consecutive_carries :
    let data : Bytes := Text.encodeUtf8 "1 beginbfrange <10> <12> <0041FFFF> endbfrange"
    ((0x0101 : UInt64).toNat + 255 < 2 ^ 64 ∧
      bigEndianValue (incrementWord [0x00, 0xFF, 0xFF] 0x0101) = 0x010100 ∧
      incrementWord [0x00, 0xFF, 0xFF] 0x0101 = increment [0x00, 0xFF, 0xFF] 0x0101 ∧
      increment [0x00, 0xFF, 0xFF] 0x0101 = [0x01, 0x01, 0x00]) ∧
    ∃ m, parse Int data = .ok m ∧
      InRange (K := Int) (.hexadecimal [0x10]) (.hexadecimal [0x12]) 0x11 1 ∧
      ∃ targets : Nat → Bytes, targets 0 = [0x00, 0x41, 0xFF, 0xFF] ∧
        FollowedBy (targets 0) (targets 1) ∧ m.text? 0x11 = some (targetText (targets 1)) := by
  intro data
  obtain ⟨counts, -, -, -, words, texts⟩ := increment_consecutive Int
  have read : (parse Int data).toOption.map (fun _ => ()) = some () := by decide +kernel
  obtain ⟨m, accepted, -⟩ := exists_of_parse read
  have entries : textEntries (Content.callsOf (K := Int) data) =
      [] ++ .range (.hexadecimal [0x10]) (.hexadecimal [0x12])
        (.hexadecimal [0x00, 0x41, 0xFF, 0xFF]) :: [] := by
    with_unfolding_all rfl
  have within : InRange (K := Int) (.hexadecimal [0x10]) (.hexadecimal [0x12]) 0x11 1 :=
    inRange_iff.mpr ⟨_, _, rfl, rfl, by decide, by decide⟩
  obtain ⟨targets, first, follow, given⟩ := texts data m accepted _ _ _ _ _ _ entries rfl
  have fits : (0x0101 : UInt64).toNat + 255 < 2 ^ 64 := by decide
  have counted : bigEndianValue (incrementWord [0x00, 0xFF, 0xFF] 0x0101) = 0x010100 :=
    (counts _ _ fits).2.trans (by decide)
  exact ⟨⟨fits, counted, words _ _ fits, by decide⟩, m, accepted, within, targets, first, follow 0,
    (given _ _ within).2 (by simp)⟩

end CMap

end PdfContent
