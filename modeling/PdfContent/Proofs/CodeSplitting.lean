import Mathlib.Algebra.Group.Nat.Defs
import PdfContent.Font.Basic
import PdfContent.Font.CMap
import PdfContent.Scalar.Whole

/-!
# Splitting a string into the codes that it was put together from

A character map may have codes of one to four bytes side by side. At the start of a string the
shortest prefix is taken that is a code of the map. So codes that are written one after another are
found again if none of them has a shorter code of the map in front: the first code is read whatever
follows it, and the rest is an induction on the codes.
-/

namespace PdfContent

/-- The bytes of a number from the most significant one on, in a given length. -/
def bigEndian : (length : Nat) → UInt32 → Bytes
  | 0, _ => []
  | length + 1, n => bigEndian length (n >>> 8) ++ [n.toUInt8]

@[simp] theorem length_bigEndian (length : Nat) (n : UInt32) :
    (bigEndian length n).length = length := by
  induction length generalizing n with
  | zero => rfl
  | succ length ih => rw [bigEndian, List.length_append, ih, List.length_singleton]

/-- A number of one to four bytes. -/
structure CharCode where
  value : UInt32
  length : Nat
  positive : 1 ≤ length
  short : length ≤ 4
  fits : value.toNat < 256 ^ length

def CharCode.bytes (c : CharCode) : Bytes := bigEndian c.length c.value

@[simp] theorem CharCode.length_bytes (c : CharCode) : c.bytes.length = c.length :=
  length_bigEndian ..

namespace CMap

/-! ### The value of bytes -/

theorem codeOf_concat (s : Bytes) (b : UInt8) :
    codeOf (s ++ [b]) = codeOf s <<< 8 ||| b.toUInt32 := by
  rw [codeOf, List.foldl_append]
  rfl

/-- A number is its high bytes before its low byte. -/
theorem shift_or_low (n : UInt32) : (n >>> 8) <<< 8 ||| n.toUInt8.toUInt32 = n := by
  apply UInt32.toNat_inj.mp
  have hn : n.toNat < 2 ^ 32 := n.toNat_lt
  have high : ((n >>> 8) <<< 8).toNat = (n.toNat / 256) <<< 8 := by
    rw [UInt32.toNat_shiftLeft, UInt32.toNat_shiftRight, Nat.shiftRight_eq_div_pow]
    apply Nat.mod_eq_of_lt
    rw [Nat.shiftLeft_eq]
    change n.toNat / 256 * 256 < 2 ^ 32
    omega
  have low : n.toUInt8.toUInt32.toNat = n.toNat % 256 := by simp
  rw [UInt32.toNat_or, high, low, ← Nat.shiftLeft_add_eq_or_of_lt (by omega), Nat.shiftLeft_eq]
  omega

theorem codeOf_bigEndian {length : Nat} {n : UInt32} (fits : n.toNat < 256 ^ length) :
    codeOf (bigEndian length n) = n := by
  induction length generalizing n with
  | zero =>
      have zero : n = 0 := UInt32.toNat_inj.mp (by simpa using fits)
      rw [zero]
      rfl
  | succ length ih =>
      have fewer : (n >>> 8).toNat < 256 ^ length := by
        rw [UInt32.toNat_shiftRight, Nat.shiftRight_eq_div_pow]
        apply Nat.div_lt_of_lt_mul
        rw [Nat.pow_succ'] at fits
        exact fits
      rw [bigEndian, codeOf_concat, ih fewer, shift_or_low]

theorem codeOf_bytes (c : CharCode) : codeOf c.bytes = c.value := codeOf_bigEndian c.fits

/-! ### The first code of a string -/

/-- The code is one of the map, and none of the shorter prefixes of its bytes is. -/
structure Separates (m : CMap) (c : CharCode) : Prop where
  isCode : ∃ r ∈ m.codespaces, r.length = c.length ∧ r.low ≤ c.value ∧ c.value ≤ r.high
  shortest : ∀ k < c.length, 1 ≤ k → ∀ r ∈ m.codespaces, r.length = k →
    ¬(r.low ≤ codeOf (c.bytes.take k) ∧ codeOf (c.bytes.take k) ≤ r.high)

instance (m : CMap) (c : CharCode) : Decidable (m.Separates c) :=
  decidable_of_iff
    ((∃ r ∈ m.codespaces, r.length = c.length ∧ r.low ≤ c.value ∧ c.value ≤ r.high) ∧
      ∀ k < c.length, 1 ≤ k → ∀ r ∈ m.codespaces, r.length = k →
        ¬(r.low ≤ codeOf (c.bytes.take k) ∧ codeOf (c.bytes.take k) ≤ r.high))
    ⟨fun h => ⟨h.1, h.2⟩, fun h => ⟨h.1, h.2⟩⟩

variable {m : CMap} {c : CharCode} {s rest : Bytes}

theorem admits_iff (r : CodespaceRange) (code : UInt32) (length : Nat) :
    r.admits code length ↔ r.length = length ∧ r.low ≤ code ∧ code ≤ r.high := by
  simp [CodespaceRange.admits, and_assoc]

/-- The lengths that are tried come in order, and those before `n` are shorter. -/
theorem exists_lengths {n : Nat} (positive : 1 ≤ n) (short : n ≤ 4) {size : Nat}
    (within : n ≤ size) :
    ∃ before after, ([1, 2, 3, 4] : List Nat).takeWhile (fun k => k ≤ size) =
      before ++ n :: after ∧ ∀ k ∈ before, 1 ≤ k ∧ k < n := by
  have one : 1 ≤ size := by omega
  obtain rfl | rfl | rfl | rfl : n = 1 ∨ n = 2 ∨ n = 3 ∨ n = 4 := by omega
  · exact ⟨[], _, by simp [one]; rfl, by simp⟩
  · exact ⟨[1], _, by simp [one, within]; rfl, by simp⟩
  · have two : 2 ≤ size := by omega
    exact ⟨[1, 2], _, by simp [one, two, within]; rfl, by simp⟩
  · have two : 2 ≤ size := by omega
    have three : 3 ≤ size := by omega
    exact ⟨[1, 2, 3], _, by simp [one, two, three, within]; rfl, by simp⟩

theorem shortestCode?_append {before after : List Nat} {n : Nat}
    (none_before : ∀ k ∈ before, ∀ r ∈ m.codespaces, ¬r.admits (codeOf (s.take k)) k)
    (found : ∃ r ∈ m.codespaces, r.admits (codeOf (s.take n)) n) :
    m.shortestCode? s (before ++ n :: after) = some (codeOf (s.take n), n) := by
  induction before with
  | nil =>
      rw [List.nil_append, shortestCode?]
      exact if_pos (List.any_eq_true.mpr found)
  | cons k before ih =>
      obtain ⟨first, later⟩ := List.forall_mem_cons.mp none_before
      rw [List.cons_append, shortestCode?]
      refine (if_neg ?_).trans (ih later)
      simpa using first

/-- A code is read from the front of a string whatever follows it. -/
theorem readCode_append (simple : m.charset = none) (separates : m.Separates c) (rest : Bytes) :
    m.readCode (c.bytes ++ rest) = (c.value, c.length) := by
  have whole : (c.bytes ++ rest).take c.length = c.bytes := by
    rw [← c.length_bytes, List.take_left]
  have within : c.length ≤ (c.bytes ++ rest).length := by
    rw [List.length_append, c.length_bytes]
    omega
  obtain ⟨before, after, lengths, shorter⟩ := exists_lengths c.positive c.short within
  have none_before : ∀ k ∈ before, ∀ r ∈ m.codespaces,
      ¬r.admits (codeOf ((c.bytes ++ rest).take k)) k := by
    intro k among r listed admits
    obtain ⟨some_bytes, fewer⟩ := shorter k among
    have front : (c.bytes ++ rest).take k = c.bytes.take k :=
      List.take_append_of_le_length (by rw [c.length_bytes]; omega)
    rw [front, admits_iff] at admits
    exact separates.shortest k fewer some_bytes r listed admits.1 admits.2
  have found :
      ∃ r ∈ m.codespaces, r.admits (codeOf ((c.bytes ++ rest).take c.length)) c.length := by
    obtain ⟨r, listed, covers⟩ := separates.isCode
    rw [whole, codeOf_bytes]
    exact ⟨r, listed, (admits_iff ..).mpr covers⟩
  rw [readCode, simple]
  dsimp only
  rw [lengths, shortestCode?_append none_before found, whole, codeOf_bytes]

end CMap

/-! ### All codes of a string -/

section Decode

variable {K σ : Type} {font : Font K σ}

/-- The first code that a font reads, before the codes of the rest. -/
theorem Font.decode_append {code : UInt32} {first rest : Bytes} (nonempty : first ≠ [])
    (read : font.readCode (first ++ rest) = (code, first.length)) :
    font.decode (first ++ rest) = (code, first) :: font.decode rest := by
  have length : font.codeLength (first ++ rest) = first.length := by
    have positive := List.length_pos_iff.mpr nonempty
    rw [Font.codeLength, read, List.length_append]
    omega
  cases first with
  | nil => exact absurd rfl nonempty
  | cons b first =>
      rw [List.cons_append] at read length ⊢
      rw [Font.decode, length, read, ← List.cons_append, List.take_left, List.drop_left]

/-- Codes that are written one after another are found again, each with its own bytes. -/
theorem CMap.decode_flatMap_bytes (m : CMap) (simple : m.charset = none) (font : Font K σ)
    (reads : font.readCode = m.readCode) (codes : List CharCode)
    (separates : ∀ c ∈ codes, m.Separates c) :
    font.decode (codes.flatMap CharCode.bytes) = codes.map fun c => (c.value, c.bytes) := by
  induction codes with
  | nil => rw [List.flatMap_nil, Font.decode, List.map_nil]
  | cons c codes ih =>
      obtain ⟨first, later⟩ := List.forall_mem_cons.mp separates
      have nonempty : c.bytes ≠ [] := by
        intro nothing
        have size := c.length_bytes
        rw [nothing] at size
        exact absurd size (by have := c.positive; simp; omega)
      have read : font.readCode (c.bytes ++ codes.flatMap CharCode.bytes) =
          (c.value, c.bytes.length) := by
        rw [reads, CMap.readCode_append simple first, c.length_bytes]
      rw [List.flatMap_cons, Font.decode_append nonempty read, ih later, List.map_cons]

/-- A map with codes of one, two and four bytes. -/
theorem CMap.decode_flatMap_bytes_mixed :
    let m : CMap := { empty with
      codespaces := [⟨0x00, 0x80, 1⟩, ⟨0x8140, 0x9FFC, 2⟩, ⟨0xA1000000, 0xA1FFFFFF, 4⟩] }
    let font : Font Int Unit :=
      { Font.ofWidth "Mixed" .composite (fun _ => 0) with readCode := m.readCode }
    let codes : List CharCode :=
      [⟨0x8140, 2, by decide, by decide, by decide⟩, ⟨0x41, 1, by decide, by decide, by decide⟩,
        ⟨0xA1418140, 4, by decide, by decide, by decide⟩]
    m.charset = none ∧ font.readCode = m.readCode ∧ (∀ c ∈ codes, m.Separates c) ∧
      font.decode [0x81, 0x40, 0x41, 0xA1, 0x41, 0x81, 0x40] =
        [(0x8140, [0x81, 0x40]), (0x41, [0x41]), (0xA1418140, [0xA1, 0x41, 0x81, 0x40])] := by
  intro m font codes
  have separates : ∀ c ∈ codes, m.Separates c := by decide
  exact ⟨rfl, rfl, separates, CMap.decode_flatMap_bytes m rfl font rfl codes separates⟩

end Decode

end PdfContent
