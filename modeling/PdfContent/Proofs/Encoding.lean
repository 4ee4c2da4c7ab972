import Mathlib.Tactic.IntervalCases
import PdfContent.Content.Lexer

/-!
# What is encoded is decoded

The UTF-8 bytes of a text decode to the text. Each character is one to four bytes, and the decoder
is back at the start of a character after them; so the bytes of one character are read before
whatever follows, and the rest is an induction on the characters.
-/

namespace PdfContent.Text

/-- A byte array that is read from a place on, onto what has been read in reverse. -/
theorem toList_loop (bytes : ByteArray) (i : Nat) (before : Bytes) :
    ByteArray.toList.loop bytes i before = before.reverse ++ bytes.data.toList.drop i := by
  fun_induction ByteArray.toList.loop bytes i before with
  | case1 i before within ih =>
      have within' : i < bytes.data.toList.length := by simpa using within
      rw [ih, List.drop_eq_getElem_cons within']
      simp [ByteArray.get!, within]
  | case2 i before beyond =>
      rw [List.drop_eq_nil_of_le (by simpa using Nat.le_of_not_lt beyond), List.append_nil]

theorem toList_toByteArray (s : Bytes) : s.toByteArray.toList = s := by
  rw [ByteArray.toList, toList_loop, List.toList_data_toByteArray]
  rfl

theorem encodeUtf8_ofList (cs : List Char) :
    encodeUtf8 (String.ofList cs) = cs.flatMap String.utf8EncodeChar := by
  rw [encodeUtf8, String.toUTF8_eq_toByteArray, String.toByteArray_ofList]
  exact toList_toByteArray _

section Bytes

variable {n m : Nat} (rest : Bytes)

theorem utf8Chars_ascii (small : n < 0x80) :
    utf8Chars none (UInt8.ofNat n :: rest) = Char.ofNat n :: utf8Chars none rest := by
  have same := UInt8.toNat_ofNat_of_lt' (show n < 256 by omega)
  simp [utf8Chars, utf8Step, utf8Start, same, small]

/-- A byte that goes on with a character. -/
theorem utf8Chars_more {r : Utf8Rest} (low : r.low.toNat ≤ n + 0x80)
    (high : n + 0x80 ≤ r.high.toNat) :
    utf8Chars (some r) (UInt8.ofNat (n + 0x80) :: rest) =
      if r.missing ≤ 1 then Char.ofNat (r.bits * 64 + n) :: utf8Chars none rest
      else utf8Chars (some ⟨r.missing - 1, 0x80, 0xBF, r.bits * 64 + n⟩) rest := by
  have same := UInt8.toNat_ofNat_of_lt' (Nat.lt_of_le_of_lt high r.high.toNat_lt)
  have within : (r.low ≤ UInt8.ofNat (n + 0x80) && UInt8.ofNat (n + 0x80) ≤ r.high) = true := by
    simp only [UInt8.le_iff_toNat_le, same, low, high, decide_true, Bool.and_self]
  rw [utf8Chars, utf8Step, if_pos within, same, Nat.add_sub_cancel]
  split <;> rfl

/-- The first of two bytes. -/
theorem utf8Chars_two (least : 2 ≤ n) (small : n < 32) :
    utf8Chars none (UInt8.ofNat (n + 0xC0) :: rest) =
      utf8Chars (some ⟨1, 0x80, 0xBF, n⟩) rest := by
  have same := UInt8.toNat_ofNat_of_lt' (show n + 0xC0 < 256 by omega)
  have start : utf8Start (UInt8.ofNat (n + 0xC0)) = ([], some ⟨1, 0x80, 0xBF, n⟩) := by
    simp only [utf8Start, same]
    rw [if_neg (by omega), if_pos (by simp; omega), Nat.add_sub_cancel]
  rw [utf8Chars, utf8Step, start]
  rfl

/-- The first two of three bytes, for a character that needs three and is no surrogate. -/
theorem utf8Chars_three (small : n < 16) (small' : m < 64) (least : n = 0 → 32 ≤ m)
    (apart : n = 13 → m < 32) :
    utf8Chars none (UInt8.ofNat (n + 0xE0) :: UInt8.ofNat (m + 0x80) :: rest) =
      utf8Chars (some ⟨1, 0x80, 0xBF, n * 64 + m⟩) rest := by
  have start : utf8Start (UInt8.ofNat (n + 0xE0)) =
      ([], some ⟨2, if n = 0 then 0xA0 else 0x80, if n = 13 then 0x9F else 0xBF, n⟩) := by
    interval_cases n <;> rfl
  rw [utf8Chars, utf8Step, start]
  refine (utf8Chars_more rest ?_ ?_).trans (if_neg (by simp))
  · change UInt8.toNat (if n = 0 then 0xA0 else 0x80) ≤ _
    split <;> simp; omega
  · change _ ≤ UInt8.toNat (if n = 13 then 0x9F else 0xBF)
    split <;> simp <;> omega

/-- The first two of four bytes, for a character that needs four and is not too large. -/
theorem utf8Chars_four (small : n ≤ 4) (small' : m < 64) (least : n = 0 → 16 ≤ m)
    (greatest : n = 4 → m < 16) :
    utf8Chars none (UInt8.ofNat (n + 0xF0) :: UInt8.ofNat (m + 0x80) :: rest) =
      utf8Chars (some ⟨2, 0x80, 0xBF, n * 64 + m⟩) rest := by
  have start : utf8Start (UInt8.ofNat (n + 0xF0)) =
      ([], some ⟨3, if n = 0 then 0x90 else 0x80, if n = 4 then 0x8F else 0xBF, n⟩) := by
    interval_cases n <;> rfl
  rw [utf8Chars, utf8Step, start]
  refine (utf8Chars_more rest ?_ ?_).trans (if_neg (by simp))
  · change UInt8.toNat (if n = 0 then 0x90 else 0x80) ≤ _
    split <;> simp; omega
  · change _ ≤ UInt8.toNat (if n = 4 then 0x8F else 0xBF)
    split <;> simp <;> omega

end Bytes

/-- The decoder reads the bytes of a character before anything that follows them. -/
theorem utf8Chars_utf8EncodeChar (c : Char) (rest : Bytes) :
    utf8Chars none (String.utf8EncodeChar c ++ rest) = c :: utf8Chars none rest := by
  have valid : c.val.toNat.isValidChar := c.valid
  have back : Char.ofNat c.val.toNat = c := Char.ofNat_toNat c
  unfold Nat.isValidChar at valid
  fun_cases String.utf8EncodeChar c with
  | case1 v small => rw [List.singleton_append, utf8Chars_ascii rest (by omega), back]
  | case2 v large small =>
      have bits : v / 64 % 32 * 64 + v % 64 = c.val.toNat := by omega
      simp only [List.cons_append, List.nil_append]
      rw [utf8Chars_two _ (by omega) (by omega), utf8Chars_more _ (by simp) (by simp; omega),
        if_pos (by simp), bits, back]
  | case3 v _ large small =>
      have bits : (v / 4096 % 16 * 64 + v / 64 % 64) * 64 + v % 64 = c.val.toNat := by omega
      simp only [List.cons_append, List.nil_append]
      rw [utf8Chars_three _ (by omega) (by omega) (by omega) (by omega),
        utf8Chars_more _ (by simp) (by simp; omega), if_pos (by simp), bits, back]
  | case4 v _ _ large =>
      have bits : ((v / 262144 % 8 * 64 + v / 4096 % 64) * 64 + v / 64 % 64) * 64 + v % 64 =
          c.val.toNat := by omega
      simp only [List.cons_append, List.nil_append]
      rw [utf8Chars_four _ (by omega) (by omega) (by omega) (by omega),
        utf8Chars_more _ (by simp) (by simp; omega), if_neg (by simp),
        utf8Chars_more _ (by simp) (by simp; omega), if_pos (by simp), bits, back]

theorem decodeUtf8_encodeUtf8 (text : String) : decodeUtf8 (encodeUtf8 text) = text := by
  obtain ⟨cs, rfl⟩ : ∃ cs, text = String.ofList cs := ⟨text.toList, text.ofList_toList.symm⟩
  rw [encodeUtf8_ofList, decodeUtf8]
  congr 1
  induction cs with
  | nil => rfl
  | cons c cs ih => rw [List.flatMap_cons, utf8Chars_utf8EncodeChar, ih]

/-- ASCII bytes are characters by themselves. -/
theorem decodeUtf8_eq_asciiText {s : Bytes} (ascii : ∀ b ∈ s, b < 0x80) :
    decodeUtf8 s = Content.asciiText s := by
  rw [decodeUtf8, Content.asciiText]
  congr 1
  induction s with
  | nil => rfl
  | cons b s ih =>
      obtain ⟨first, later⟩ := List.forall_mem_cons.mp ascii
      have step := utf8Chars_ascii s (UInt8.lt_iff_toNat_lt.mp first)
      rw [UInt8.ofNat_toNat] at step
      rw [step, ih later, List.map_cons]

end PdfContent.Text
