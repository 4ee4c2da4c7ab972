import Mathlib.Data.List.DropRight
import Mathlib.Data.List.TakeWhile
import PdfContent.Text.Blank
import PdfContent.Text.Parts

/-!
# Parts of texts, and the blanks around them

Cutting a text at a separator is the splitting of lists, or a decomposition at the first occurrence.
Trimming takes off the blanks at both ends, so that it does not matter how many of them there are.
-/

namespace PdfContent.Text

/-! ### Separators -/

theorem splitAt_eq_splitOn (separator : Char) (s : List Char) :
    splitAt separator s = s.splitOn separator := by
  induction s with
  | nil => rfl
  | cons c rest ih =>
      rw [splitAt, ih, List.splitOn_cons_eq_if_modifyHead]
      split
      · rfl
      · cases s : rest.splitOn separator with
        | nil => exact (List.splitOn_ne_nil _ _ s).elim
        | cons part parts => rfl

theorem flatten_splitOn (separator : Char) (s : List Char) :
    (s.splitOn separator).flatten = s.filter (· != separator) := by
  induction s with
  | nil => rfl
  | cons c rest ih =>
      rw [List.splitOn_cons_eq_if_modifyHead, List.filter_cons, ← ih]
      by_cases isSeparator : c = separator
      · simp [isSeparator]
      · cases parts : rest.splitOn separator with
        | nil => exact (List.splitOn_ne_nil _ _ parts).elim
        | cons part others => simp [isSeparator]

theorem cutAt?_eq_none_iff {separator : Char} {s : List Char} :
    cutAt? separator s = none ↔ separator ∉ s := by
  induction s with
  | nil => simp [cutAt?]
  | cons c rest ih =>
      by_cases isSeparator : c = separator
      · simp [cutAt?, isSeparator]
      · simp [cutAt?, isSeparator, ih, Ne.symm isSeparator]

/-- A text is cut at the first occurrence of the separator. -/
theorem cutAt?_append {separator : Char} {before : List Char} (first : separator ∉ before)
    (after : List Char) : cutAt? separator (before ++ separator :: after) = some (before, after) := by
  induction before with
  | nil => simp [cutAt?]
  | cons c rest ih =>
      obtain ⟨other, later⟩ := not_or.mp (mt List.mem_cons.mpr first)
      rw [List.cons_append, cutAt?, if_neg (by simpa using Ne.symm other), ih later]
      rfl

/-! ### Blanks -/

/-- Nothing but white space. -/
def Blank (s : List Char) : Prop := ∀ c ∈ s, isBlank c

theorem trim_eq_rdropWhile (s : List Char) : trim s = (s.dropWhile isBlank).rdropWhile isBlank := rfl

theorem trim_eq_nil_iff {s : List Char} : trim s = [] ↔ Blank s := by
  rw [trim_eq_rdropWhile, List.rdropWhile_eq_nil_iff]
  refine ⟨fun rest c mem => ?_, fun blank c mem => blank c (List.dropWhile_subset _ mem)⟩
  rw [← List.takeWhile_append_dropWhile (p := isBlank) (l := s), List.mem_append] at mem
  exact mem.elim List.mem_takeWhile_imp (rest c)

/-- What comes before a character that is not blank is not trimmed at the end. -/
theorem rdropWhile_append_cons {c : Char} (visible : isBlank c = false) (before after : List Char) :
    (before ++ c :: after).rdropWhile isBlank = before ++ c :: after.rdropWhile isBlank := by
  induction after using List.reverseRecOn with
  | nil => exact List.rdropWhile_concat_neg _ _ _ (by simp [visible])
  | append_singleton after d ih =>
      have whole : before ++ c :: (after ++ [d]) = before ++ c :: after ++ [d] := by simp
      by_cases blank : isBlank d
      · rw [whole, List.rdropWhile_concat_pos _ _ _ blank, ih, List.rdropWhile_concat_pos _ _ _ blank]
      · rw [whole, List.rdropWhile_concat_neg _ _ _ blank, List.rdropWhile_concat_neg _ _ _ blank,
          whole]

/-- Around a character that is not blank, each end is trimmed by itself. -/
theorem trim_append_cons {c : Char} (visible : isBlank c = false) (before after : List Char) :
    trim (before ++ c :: after) = before.dropWhile isBlank ++ c :: after.rdropWhile isBlank := by
  have front : (before ++ c :: after).dropWhile isBlank =
      before.dropWhile isBlank ++ c :: after := by
    rw [List.dropWhile_append]
    split
    next none_left =>
      rw [List.isEmpty_iff.mp none_left, List.dropWhile_cons_of_neg (by simp [visible])]
      rfl
    · rfl
  rw [trim_eq_rdropWhile, front, rdropWhile_append_cons visible]

/-- It does not matter how many blanks are around a text. -/
theorem trim_padded {before after : List Char} (blankBefore : Blank before)
    (blankAfter : Blank after) (s : List Char) : trim (before ++ s ++ after) = trim s := by
  by_cases blank : Blank s
  · have all : Blank (before ++ s ++ after) := by
      simp only [Blank, List.mem_append]
      rintro c ((mem | mem) | mem)
      · exact blankBefore c mem
      · exact blank c mem
      · exact blankAfter c mem
    rw [trim_eq_nil_iff.mpr blank, trim_eq_nil_iff.mpr all]
  · obtain ⟨c, mem, visible⟩ : ∃ c ∈ s, isBlank c = false := by simpa [Blank] using blank
    obtain ⟨front, back, rfl⟩ := List.append_of_mem mem
    have whole : before ++ (front ++ c :: back) ++ after =
        (before ++ front) ++ c :: (back ++ after) := by simp
    have tail : (back ++ after).rdropWhile isBlank = back.rdropWhile isBlank := by
      rw [List.rdropWhile, List.reverse_append,
        List.dropWhile_append_of_pos fun d mem => blankAfter d (List.mem_reverse.mp mem)]
      rfl
    rw [whole, trim_append_cons visible, trim_append_cons visible, tail,
      List.dropWhile_append_of_pos blankBefore]

/-- What is trimmed off are blanks. -/
theorem exists_padding (s : List Char) :
    ∃ before after, Blank before ∧ Blank after ∧ s = before ++ trim s ++ after := by
  refine ⟨s.takeWhile isBlank, (s.dropWhile isBlank).rtakeWhile isBlank,
    fun c => List.mem_takeWhile_imp, fun c => List.mem_rtakeWhile_imp, ?_⟩
  rw [trim_eq_rdropWhile, List.append_assoc, List.rdropWhile_append_rtakeWhile,
    List.takeWhile_append_dropWhile]

theorem trim_trim (s : List Char) : trim (trim s) = trim s := by
  obtain ⟨before, after, blankBefore, blankAfter, padded⟩ := exists_padding s
  rw [← trim_padded blankBefore blankAfter (trim s), ← padded]

theorem trim_dropWhile (s : List Char) : trim (s.dropWhile isBlank) = trim s := by
  rw [trim_eq_rdropWhile, List.dropWhile_idempotent, ← trim_eq_rdropWhile]

theorem trim_rdropWhile (s : List Char) : trim (s.rdropWhile isBlank) = trim s := by
  have blank : Blank (s.rtakeWhile isBlank) := fun c => List.mem_rtakeWhile_imp
  have padded := trim_padded (List.forall_mem_nil _) blank (s.rdropWhile isBlank)
  rw [List.nil_append, List.rdropWhile_append_rtakeWhile] at padded
  exact padded.symm

theorem trim_of_visible {s : List Char} (visible : ∀ c ∈ s, isBlank c = false) : trim s = s := by
  have kept {t : List Char} (visible : ∀ c ∈ t, isBlank c = false) : t.dropWhile isBlank = t := by
    cases t with
    | nil => rfl
    | cons c rest =>
        exact List.dropWhile_cons_of_neg (by simp [visible c List.mem_cons_self])
  have back : s.reverse.dropWhile isBlank = s.reverse :=
    kept fun c mem => visible c (List.mem_reverse.mp mem)
  rw [trim, kept visible, back, List.reverse_reverse]

end PdfContent.Text
