import Mathlib.Data.List.TakeWhile
import PdfContent.Proofs.MapPrograms

/-!
# The pieces that strings are split into

A string is split in turns. In each turn the font is asked for the code at the start of what is left
and for the code's length, which is brought between one byte and all that is left. `Font.Splits` is
this loop as a relation: nothing in it bounds the number of turns, and nothing is known of the font.
That every string is split, in one way only, is an induction on what is left, and so is that the pieces
are the string again.

A character map is a well-behaved font: it takes no more bytes than there are, at least one, and gives
their value.
-/

namespace PdfContent

namespace Font

variable {K σ : Type} {font : Font K σ} {s : Bytes} {pieces : List (UInt32 × Bytes)}

/-- The turns in which a string is split into codes, each with the bytes that were taken for it. -/
inductive Splits (font : Font K σ) : Bytes → List (UInt32 × Bytes) → Prop
  | done : Splits font [] []
  | turn {s code asked length pieces} (left : s ≠ []) (read : font.readCode s = (code, asked))
    (clamped : length = max 1 (min asked s.length)) (later : Splits font (s.drop length) pieces) :
    Splits font s ((code, s.take length) :: pieces)

theorem decode_of_ne_nil (left : s ≠ []) :
    font.decode s = ((font.readCode s).1, s.take (font.codeLength s)) ::
      font.decode (s.drop (font.codeLength s)) := by
  cases s with
  | nil => exact absurd rfl left
  | cons b rest => rw [decode]

/-- Each string is split in the end: a turn takes at least one byte. -/
theorem splits_decode (font : Font K σ) (s : Bytes) : font.Splits s (font.decode s) := by
  induction size : s.length using Nat.strongRecOn generalizing s with
  | ind size ih =>
    by_cases left : s = []
    · subst left
      rw [decode]
      exact .done
    · rw [decode_of_ne_nil left]
      refine .turn left rfl rfl (ih _ ?_ _ rfl)
      have positive := font.codeLength_pos s
      have some_left := List.length_pos_iff.mpr left
      rw [List.length_drop, ← size]
      exact Nat.sub_lt some_left positive

namespace Splits

/-- A string is split in one way only. -/
theorem eq_decode (splits : font.Splits s pieces) : pieces = font.decode s := by
  induction splits with
  | done => rw [decode]
  | @turn s _ _ length _ left read clamped _ ih =>
      have taken : font.codeLength s = length := by rw [codeLength, read, ← clamped]
      rw [decode_of_ne_nil left, taken, read, ih]

theorem length_le (splits : font.Splits s pieces) : pieces.length ≤ s.length := by
  induction splits with
  | done => exact Nat.le_refl _
  | turn left _ clamped _ ih =>
      have some_left := List.length_pos_iff.mpr left
      rw [List.length_drop] at ih
      rw [List.length_cons]
      omega

theorem ne_nil (splits : font.Splits s pieces) : ∀ piece ∈ pieces, piece.2 ≠ [] := by
  induction splits with
  | done => simp
  | turn left _ clamped _ ih =>
      refine List.forall_mem_cons.mpr ⟨?_, ih⟩
      rw [Ne, List.take_eq_nil_iff]
      rintro (none_taken | nothing)
      · omega
      · exact left nothing

theorem flatten (splits : font.Splits s pieces) : (pieces.map Prod.snd).flatten = s := by
  induction splits with
  | done => rfl
  | turn _ _ _ _ ih => rw [List.map_cons, List.flatten_cons, ih, List.take_append_drop]

end Splits

/-- A string is split in as many turns as it has bytes at most. No byte is lost, repeated or left in an
empty piece. -/
structure DecodesWhole (font : Font K σ) (s : Bytes) : Prop where
  splits : font.Splits s (font.decode s)
  only : ∀ pieces, font.Splits s pieces → pieces = font.decode s
  turns : (font.decode s).length ≤ s.length
  nonempty : ∀ piece ∈ font.decode s, piece.2 ≠ []
  whole : ((font.decode s).map Prod.snd).flatten = s

theorem decodesWhole (font : Font K σ) (s : Bytes) : font.DecodesWhole s :=
  have splits := font.splits_decode s
  ⟨splits, fun _ => Splits.eq_decode, splits.length_le, splits.ne_nil, splits.flatten⟩

end Font

namespace CMap

variable {m : CMap} {s : Bytes}

/-- A map reads a code from the start of a string: its value is that of the bytes that are taken. -/
structure ReadsWithin (m : CMap) (s : Bytes) : Prop where
  positive : 1 ≤ (m.readCode s).2
  within : (m.readCode s).2 ≤ s.length
  value : (m.readCode s).1.toNat = bigEndianValue (s.take (m.readCode s).2) % 2 ^ 32

/-- Whatever the length is chosen by, the code is that of as many bytes. -/
theorem ReadsWithin.of_eq {length : Nat} (read : m.readCode s = (codeOf (s.take length), length))
    (positive : 1 ≤ length) (within : length ≤ s.length) : m.ReadsWithin s where
  positive := by rwa [read]
  within := by rwa [read]
  value := by rw [read, toNat_codeOf]

/-- Of the lengths that are tried one is found. -/
theorem eq_of_shortestCode? {lengths : List Nat} {found : UInt32 × Nat}
    (read : m.shortestCode? s lengths = some found) :
    ∃ length ∈ lengths, found = (codeOf (s.take length), length) := by
  induction lengths with
  | nil => cases read
  | cons length lengths ih =>
      rw [shortestCode?] at read
      split at read
      · cases read
        exact ⟨length, List.mem_cons_self, rfl⟩
      · obtain ⟨other, among, same⟩ := ih read
        exact ⟨other, List.mem_cons_of_mem _ among, same⟩

theorem readsWithin (m : CMap) (left : s ≠ []) : m.ReadsWithin s := by
  have some_left := List.length_pos_iff.mpr left
  cases legacy : m.charset with
  | some charset =>
      -- A lead byte takes a second one only where there is one.
      match s with
      | [b] =>
        have read : m.readCode [b] = (codeOf ([b].take 1), 1) := by simp only [readCode, legacy]
        exact .of_eq read (Nat.le_refl 1) (Nat.le_refl 1)
      | lead :: low :: rest =>
        have read : m.readCode (lead :: low :: rest) =
            let length := if charset.isLead lead then 2 else 1
            (codeOf ((lead :: low :: rest).take length), length) := by
          simp only [readCode, legacy]
        refine .of_eq read ?_ ?_ <;> split <;> simp
  | none =>
      cases found : m.shortestCode? s (([1, 2, 3, 4] : List Nat).takeWhile fun n => n ≤ s.length) with
      | some code =>
          obtain ⟨length, among, rfl⟩ := eq_of_shortestCode? found
          have tried : length ∈ [1, 2, 3, 4] := List.takeWhile_subset _ among
          have within : length ≤ s.length := by simpa using List.mem_takeWhile_imp among
          have read : m.readCode s = (codeOf (s.take length), length) := by
            simp only [readCode, legacy, found]
          refine .of_eq read ?_ within
          simp only [List.mem_cons, List.not_mem_nil, or_false] at tried
          omega
      | none =>
          let shortest := ((m.codespaces.map CodespaceRange.length).min?).getD 1
          let length := max (min shortest s.length) 1
          have read : m.readCode s = (codeOf (s.take length), length) := by
            simp only [readCode, legacy, found, length, shortest]
          exact .of_eq read (by omega) (by omega)

end CMap

/-- Every font splits every string into pieces that are the string again, whatever it answers when it
is asked for codes; and a character map takes bytes that are there, one at least, and answers with their
value. -/
theorem Font.decode_whole_readCode_within {K σ : Type} (font : Font K σ) (m : CMap) :
    (∀ s, font.DecodesWhole s) ∧ ∀ s, s ≠ [] → m.ReadsWithin s :=
  ⟨font.decodesWhole, fun _ => m.readsWithin⟩

/-- A font that asks for nothing or for too much, and a map whose codes are longer than the string. -/
theorem Font.decode_whole_readCode_within_clamped :
    let font : Font Int Unit :=
      { Font.ofWidth "Odd" .composite (fun _ => 0) with
        readCode := fun s => (7, if s.length = 3 then 0 else 9) }
    let m : CMap := { CMap.empty with codespaces := [⟨0, 0, 6⟩] }
    font.decode [0x41, 0x42, 0x43] = [(7, [0x41]), (7, [0x42, 0x43])] ∧
      font.DecodesWhole [0x41, 0x42, 0x43] ∧ [0x81, 0x40] ≠ ([] : Bytes) ∧
      m.readCode [0x81, 0x40] = (0x8140, 2) ∧ m.ReadsWithin [0x81, 0x40] := by
  intro font m
  obtain ⟨whole, within⟩ := Font.decode_whole_readCode_within font m
  refine ⟨?_, whole _, by decide, by decide, within _ (by decide)⟩
  have last : font.Splits [0x42, 0x43] [(7, [0x42, 0x43])] :=
    @Splits.turn _ _ font [0x42, 0x43] 7 9 2 _ (by decide) rfl rfl .done
  have all : font.Splits [0x41, 0x42, 0x43] [(7, [0x41]), (7, [0x42, 0x43])] :=
    @Splits.turn _ _ font [0x41, 0x42, 0x43] 7 0 1 _ (by decide) rfl rfl last
  exact ((whole _).only _ all).symm

end PdfContent
