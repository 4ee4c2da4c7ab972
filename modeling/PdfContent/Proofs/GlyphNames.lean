import Mathlib.Data.Nat.Digits.Lemmas
import Mathlib.Data.String.Basic
import PdfContent.Font.GlyphName
import PdfContent.Proofs.TextParts

/-!
# The grammar of glyph names

A glyph name has a text if each of its components is of one of four forms, and then the text is that of
the components, one after the other. No component has two forms with different texts, so the order in
which the forms are tried does not show. Digits are read by a reader of numbers that lets a plus sign
stand before them; the grammar is stated with and without that sign, and the two differ just on the
names that have a sign and yet a text.
-/

namespace PdfContent.Glyph

/-! ### The table -/

section Search

variable {α β : Type} [LinearOrder β] {key : α → β} {table : Array α} {k e : α}

/-- The keys of a table are in order, and none occurs twice. -/
def Increasing (key : α → β) (table : Array α) : Prop :=
  ∀ i j, ∀ hi : i < table.size, ∀ hj : j < table.size, i < j → key table[i] < key table[j]

theorem Increasing.lt_of_key_lt (increasing : Increasing key table) {i j : Nat} (hi : i < table.size)
    (hj : j < table.size) (below : key table[i] < key table[j]) : i < j := by
  by_contra notBefore
  rcases Nat.eq_or_lt_of_le (Nat.le_of_not_lt notBefore) with rfl | after
  · exact lt_irrefl _ below
  · exact lt_asymm below (increasing j i hj hi after)

/-- Searching by halving finds the entry with a key between two positions. The cases are those of one
step: the entry in the middle is before or after the key, with or without entries left on that side, or
has the key. -/
theorem Increasing.binSearchAux_eq_some_iff (increasing : Increasing key table)
    (lo : Fin (table.size + 1)) (hi : Fin table.size) (bounds : lo.1 ≤ hi.1) :
    table.binSearchAux (fun a b => decide (key a < key b)) id k lo hi bounds = some e ↔
      ∃ i, ∃ _ : i < table.size, lo.1 ≤ i ∧ i ≤ hi.1 ∧ table[i] = e ∧ key e = key k := by
  fun_induction Array.binSearchAux with
  | case1 lo hi _ m a below more _ ih =>
      have above {i : Nat} (within : i < table.size) (same : key table[i] = key k) : m < i :=
        increasing.lt_of_key_lt (by omega) within (same ▸ of_decide_eq_true below)
      rw [ih]
      constructor
      · rintro ⟨i, within, least, most, rfl, same⟩
        exact ⟨i, within, by simp at least; omega, most, rfl, same⟩
      · rintro ⟨i, within, least, most, rfl, same⟩
        exact ⟨i, within, above within same, most, rfl, same⟩
  | case2 lo hi _ m a below last _ =>
      refine iff_of_false (by simp) ?_
      rintro ⟨i, within, least, most, rfl, same⟩
      have := increasing.lt_of_key_lt (i := m) (by omega) within (same ▸ of_decide_eq_true below)
      omega
  | case3 lo hi _ m a _ above first _ =>
      refine iff_of_false (by simp) ?_
      rintro ⟨i, within, least, most, rfl, same⟩
      have := increasing.lt_of_key_lt (j := m) within (by omega) (same ▸ of_decide_eq_true above)
      omega
  | case4 lo hi _ m a _ above more _ ih =>
      have below {i : Nat} (within : i < table.size) (same : key table[i] = key k) : i < m :=
        increasing.lt_of_key_lt within (by omega) (same ▸ of_decide_eq_true above)
      rw [ih]
      constructor
      · rintro ⟨i, within, least, most, rfl, same⟩
        exact ⟨i, within, least, by simp at most; omega, rfl, same⟩
      · rintro ⟨i, within, least, most, rfl, same⟩
        exact ⟨i, within, least, Nat.le_pred_of_lt (below within same), rfl, same⟩
  | case5 lo hi _ m a notBelow notAbove _ =>
      have same : key table[m] = key k :=
        le_antisymm (not_lt.mp (by simpa using notAbove)) (not_lt.mp (by simpa using notBelow))
      constructor
      · intro found
        obtain rfl : a = e := Option.some.inj found
        exact ⟨m, by omega, by omega, by omega, rfl, same⟩
      · rintro ⟨i, within, least, most, rfl, same'⟩
        have here : m = i := by
          rcases Nat.lt_trichotomy m i with before | here | after
          · exact absurd (same.trans same'.symm) (ne_of_lt (increasing _ _ _ _ before))
          · exact here
          · exact absurd (same'.trans same.symm) (ne_of_lt (increasing _ _ _ _ after))
        subst here
        rfl

theorem Increasing.binSearch_eq_some_iff (increasing : Increasing key table) :
    table.binSearch k (fun a b => decide (key a < key b)) = some e ↔ e ∈ table ∧ key e = key k := by
  unfold Array.binSearch
  by_cases some : 0 < table.size
  · have last : table.size - 1 < table.size := by omega
    simp only [some, last, Nat.zero_le, dite_true, if_true, increasing.binSearchAux_eq_some_iff,
      Array.mem_iff_getElem]
    constructor
    · rintro ⟨i, within, -, -, here, same⟩
      exact ⟨⟨i, within, here⟩, same⟩
    · rintro ⟨⟨i, within, here⟩, same⟩
      exact ⟨i, within, trivial, Nat.le_pred_of_lt within, here, same⟩
  · have empty : table = #[] := Array.eq_empty_of_size_eq_zero (by omega)
    simp [empty]

end Search

/-- A name that no form but the table takes, and that has no plus sign. -/
def Unformed (name : List Char) : Prop :=
  uniForm? name = none ∧ shortForm? name = none ∧ '+' ∉ name ∧ name.length ≠ 1

instance : DecidablePred Unformed := fun _ => inferInstanceAs (Decidable (_ ∧ _))

/-- The names of the table are in order, and none has another form. -/
theorem characterTable_increasing_unformed : (characterTable.IsChain fun a b => a.1 < b.1) ∧
    ∀ entry ∈ characterTable, Unformed entry.1.toList := by
  decide +kernel

theorem increasing_characters : Increasing Prod.fst characters := by
  have pairwise :=
    List.pairwise_iff_getElem.mp (List.isChain_iff_pairwise.mp characterTable_increasing_unformed.1)
  exact fun i j hi hj before => pairwise i j hi hj before

theorem unformed_of_listed {name : List Char} {n : Nat}
    (listed : (String.ofList name, n) ∈ characterTable) : Unformed name := by
  simpa using characterTable_increasing_unformed.2 _ listed

/-- Searching for a name finds it just if it is in the table. -/
theorem listed?_eq_some_iff (name : String) (c : Char) :
    listed? name = some c ↔ ∃ n, (name, n) ∈ characterTable ∧ c = Char.ofNat n := by
  have found (entry : String × Nat) :=
    increasing_characters.binSearch_eq_some_iff (k := (name, 0)) (e := entry)
  simp only [listed?, Option.map_eq_some_iff]
  constructor
  · rintro ⟨⟨name', n⟩, isFound, rfl⟩
    obtain ⟨mem, rfl⟩ := (found _).mp isFound
    exact ⟨n, by simpa [characters] using mem, rfl⟩
  · rintro ⟨n, mem, rfl⟩
    exact ⟨(name, n), (found _).mpr ⟨by simpa [characters] using mem, rfl⟩, rfl⟩

/-! ### Digits -/

/-- Hexadecimal digits and the number that they spell. -/
def HexNumber (digits : List Char) (n : Nat) : Prop :=
  ∃ values, List.Forall₂ (fun c v => Text.hexValue? c = some v) digits values ∧
    n = Nat.ofDigits 16 values.reverse

/-- Digits that name a Unicode scalar value, and its character. With `signs`, one plus sign may stand
before them. -/
inductive Digits (signs : Bool) : List Char → Char → Prop
  | plain {digits : List Char} {n : Nat} : digits ≠ [] → HexNumber digits n → n.isValidChar →
      Digits signs digits (Char.ofNat n)
  | signed {digits : List Char} {n : Nat} : signs = true → digits ≠ [] → HexNumber digits n →
      n.isValidChar → Digits signs ('+' :: digits) (Char.ofNat n)

theorem hexDigits?_eq_some_iff (digits : List Char) (start n : Nat) :
    hexDigits? start digits = some n ↔ ∃ values,
      List.Forall₂ (fun c v => Text.hexValue? c = some v) digits values ∧
        n = Nat.ofDigits 16 (values.reverse ++ [start]) := by
  induction digits generalizing start with
  | nil => simp [hexDigits?, eq_comm]
  | cons c rest ih =>
      have next (v : Nat) (values : List Nat) :
          Nat.ofDigits 16 ((v :: values).reverse ++ [start]) =
            Nat.ofDigits 16 (values.reverse ++ [start * 16 + v]) := by
        simp only [List.reverse_cons, List.append_assoc, List.singleton_append, Nat.ofDigits_append,
          Nat.ofDigits_cons, Nat.ofDigits_nil]
        ring
      simp only [hexDigits?, Option.bind_eq_bind, Option.bind_eq_some_iff, ih,
        List.forall₂_cons_left_iff]
      constructor
      · rintro ⟨v, value, values, all, rfl⟩
        exact ⟨v :: values, ⟨v, values, value, all, rfl⟩, (next v values).symm⟩
      · rintro ⟨_, ⟨v, values, value, all, rfl⟩, rfl⟩
        exact ⟨v, value, values, all, next v values⟩

theorem hexDigits?_zero_eq_some_iff (digits : List Char) (n : Nat) :
    hexDigits? 0 digits = some n ↔ HexNumber digits n := by
  simp only [hexDigits?_eq_some_iff, HexNumber, Nat.ofDigits_append, Nat.ofDigits_singleton,
    Nat.mul_zero, Nat.add_zero]

theorem HexNumber.plus_notMem {digits : List Char} {n : Nat} (number : HexNumber digits n) :
    '+' ∉ digits := by
  obtain ⟨values, all, -⟩ := number
  induction all with
  | nil => simp
  | @cons c v _ _ value _ ih =>
      have noSign : '+' ≠ c := by
        rintro rfl
        have noDigit : Text.hexValue? '+' = none := by decide
        simp [noDigit] at value
      simpa using ⟨noSign, ih⟩

/-- A number may have a plus sign before its digits. -/
theorem hexNumber?_eq_some_iff (digits : List Char) (n : Nat) :
    hexNumber? digits = some n ↔ digits ≠ [] ∧ HexNumber digits n ∨
      ∃ unsigned, digits = '+' :: unsigned ∧ unsigned ≠ [] ∧ HexNumber unsigned n := by
  fun_cases hexNumber? digits with
  | case1 c rest =>
      have noSign : ¬ HexNumber ('+' :: c :: rest) n := fun number => number.plus_notMem (by simp)
      simp [hexDigits?_zero_eq_some_iff, noSign]
  | case2 =>
      have noSign : ¬ HexNumber ['+'] n := fun number => number.plus_notMem (by simp)
      simp [noSign]
  | case3 => simp
  | case4 digits signed alone empty =>
      have unsigned (rest : List Char) (here : digits = '+' :: rest) : rest = [] := by
        cases rest with
        | nil => rfl
        | cons c rest => exact (signed c rest here).elim
      have empty' : digits ≠ [] := fun here => empty here
      rw [hexDigits?_zero_eq_some_iff]
      constructor
      · exact fun number => .inl ⟨empty', number⟩
      · rintro (⟨-, number⟩ | ⟨rest, here, more, -⟩)
        · exact number
        · exact absurd (unsigned rest here) more

/-- The numbers with a character are the Unicode scalar values. -/
theorem scalar?_eq_some_iff (n : Nat) (c : Char) :
    scalar? n = some c ↔ n.isValidChar ∧ c = Char.ofNat n := by
  simp only [scalar?, Nat.isValidChar]
  split <;> rename_i within
  · simp only [Bool.or_eq_true, Bool.and_eq_true, decide_eq_true_eq] at within
    simp [within, eq_comm]
  · simp only [Bool.or_eq_true, Bool.and_eq_true, decide_eq_true_eq] at within
    simp [within]

/-- The digits that the reader of numbers takes, a plus sign included. -/
theorem exists_hexNumber?_iff (digits : List Char) (c : Char) :
    (∃ n, hexNumber? digits = some n ∧ scalar? n = some c) ↔ Digits true digits c := by
  simp only [hexNumber?_eq_some_iff, scalar?_eq_some_iff]
  constructor
  · rintro ⟨n, ⟨some, number⟩ | ⟨unsigned, rfl, some, number⟩, valid, rfl⟩
    · exact .plain some number valid
    · exact .signed rfl some number valid
  · rintro (⟨some, number, valid⟩ | ⟨-, some, number, valid⟩)
    · exact ⟨_, .inl ⟨some, number⟩, valid, rfl⟩
    · exact ⟨_, .inr ⟨_, rfl, some, number⟩, valid, rfl⟩

/-- Without signs there are the digits that have no plus sign. -/
theorem Digits.unsigned_iff (digits : List Char) (c : Char) :
    Digits false digits c ↔ Digits true digits c ∧ '+' ∉ digits := by
  constructor
  · rintro (⟨some, number, valid⟩ | ⟨signs, _⟩)
    · exact ⟨.plain some number valid, number.plus_notMem⟩
    · exact absurd signs (by simp)
  · rintro ⟨⟨some, number, valid⟩ | ⟨-, some, number, valid⟩, unsigned⟩
    · exact .plain some number valid
    · simp at unsigned

/-! ### Components -/

/-- Groups of four digits, and the text of their characters. -/
inductive Groups (signs : Bool) : List Char → List Char → Prop
  | nil : Groups signs [] []
  | cons {a b c d first : Char} {rest text : List Char} : Digits signs [a, b, c, d] first →
      Groups signs rest text → Groups signs (a :: b :: c :: d :: rest) (first :: text)

/-- The four forms of a component, each with its text. -/
inductive Component (signs : Bool) : List Char → List Char → Prop
  | groups {digits text : List Char} : digits ≠ [] → Groups signs digits text →
      Component signs ('u' :: 'n' :: 'i' :: digits) text
  | short {digits : List Char} {c : Char} : 4 ≤ digits.length → digits.length ≤ 6 →
      Digits signs digits c → Component signs ('u' :: digits) [c]
  | letter {c : Char} : c.isAlpha → Component signs [c] [c]
  | listed {name : List Char} {n : Nat} : (String.ofList name, n) ∈ characterTable →
      Component signs name [Char.ofNat n]

theorem fourDigitGroups?_eq_some_iff (digits text : List Char) :
    fourDigitGroups? digits = some text ↔ Groups true digits text := by
  fun_induction fourDigitGroups? digits generalizing text with
  | case1 a b c d rest ih =>
      simp only [Option.bind_eq_bind, Option.bind_eq_some_iff, exists_hexNumber?_iff, ih,
        Option.some.injEq]
      constructor
      · rintro ⟨first, isFirst, others, areOthers, rfl⟩
        exact .cons isFirst areOthers
      · rintro (_ | ⟨isFirst, areOthers⟩)
        exact ⟨_, isFirst, _, areOthers, rfl⟩
  | case2 =>
      constructor
      · intro here
        obtain rfl : [] = text := Option.some.inj here
        exact .nil
      · rintro ⟨⟩
        rfl
  | case3 digits four empty =>
      refine iff_of_false (by simp) ?_
      rintro (_ | _)
      · exact empty rfl
      · exact four _ _ _ _ _ rfl

theorem notMem_four {x a b c d : Char} {rest : List Char} :
    x ∉ a :: b :: c :: d :: rest ↔ x ∉ [a, b, c, d] ∧ x ∉ rest := by
  rw [← not_or, ← List.mem_append]
  rfl

theorem Groups.unsigned_iff (digits text : List Char) :
    Groups false digits text ↔ Groups true digits text ∧ '+' ∉ digits := by
  constructor
  · intro groups
    induction groups with
    | nil => exact ⟨.nil, by simp⟩
    | cons isFirst _ ih =>
        obtain ⟨isFirst, unsigned⟩ := (Digits.unsigned_iff ..).mp isFirst
        exact ⟨.cons isFirst ih.1, notMem_four.mpr ⟨unsigned, ih.2⟩⟩
  · rintro ⟨groups, unsigned⟩
    induction groups with
    | nil => exact .nil
    | cons isFirst _ ih =>
        rw [notMem_four] at unsigned
        exact .cons ((Digits.unsigned_iff ..).mpr ⟨isFirst, unsigned.1⟩) (ih unsigned.2)

theorem uniForm?_eq_some_iff (name text : List Char) :
    uniForm? name = some text ↔
      ∃ digits, name = 'u' :: 'n' :: 'i' :: digits ∧ digits ≠ [] ∧ Groups true digits text := by
  fun_cases uniForm? name with
  | case1 digits none => simp_all
  | case2 digits some =>
      simp only [List.isEmpty_iff] at some
      simp [fourDigitGroups?_eq_some_iff, some]
  | case3 name other =>
      refine iff_of_false (by simp) ?_
      rintro ⟨digits, rfl, -⟩
      exact other digits rfl

theorem shortForm?_eq_some_iff (name text : List Char) :
    shortForm? name = some text ↔ ∃ digits c, name = 'u' :: digits ∧ text = [c] ∧
      4 ≤ digits.length ∧ digits.length ≤ 6 ∧ Digits true digits c := by
  fun_cases shortForm? name with
  | case1 digits within =>
      simp only [Bool.and_eq_true, decide_eq_true_eq] at within
      simp only [Option.bind_eq_bind, Option.map_eq_some_iff, Option.bind_eq_some_iff,
        exists_hexNumber?_iff]
      constructor
      · rintro ⟨c, isC, rfl⟩
        exact ⟨digits, c, rfl, rfl, within.1, within.2, isC⟩
      · rintro ⟨_, c, ⟨⟩, rfl, -, -, isC⟩
        exact ⟨c, isC, rfl⟩
  | case2 digits outside =>
      refine iff_of_false (by simp) ?_
      rintro ⟨_, c, ⟨⟩, -, least, most, -⟩
      exact outside (by simp [least, most])
  | case3 name other =>
      refine iff_of_false (by simp) ?_
      rintro ⟨digits, c, rfl, -⟩
      exact other digits rfl

theorem Digits.first {signs : Bool} {first c : Char} {rest : List Char}
    (digits : Digits signs (first :: rest) c) : first = '+' ∨ ∃ v, Text.hexValue? first = some v := by
  obtain ⟨-, ⟨_, all, -⟩, -⟩ | _ := digits
  · obtain ⟨v, _, value, -, -⟩ := List.forall₂_cons_left_iff.mp all
    exact .inr ⟨v, value⟩
  · exact .inl rfl

/-- What follows `u` in a name with `uni` is no number, as `n` is no digit. -/
theorem Digits.ne_uni {signs : Bool} {digits : List Char} {c : Char} (number : Digits signs digits c)
    (rest : List Char) : digits ≠ 'n' :: 'i' :: rest := by
  rintro rfl
  have noDigit : Text.hexValue? 'n' = none := by decide
  simpa [noDigit] using number.first

theorem character?_eq_some_iff (name : List Char) (c : Char) :
    character? (String.ofList name) = some c ↔
      name = [c] ∧ c.isAlpha ∨ ∃ n, (String.ofList name, n) ∈ characterTable ∧ c = Char.ofNat n := by
  unfold character?
  rw [String.toList_ofList]
  split
  · rename_i single
    have unlisted (n : Nat) : (String.ofList [single], n) ∉ characterTable :=
      fun listed => (unformed_of_listed listed).2.2.2 rfl
    simp only [unlisted, false_and, exists_false, or_false]
    split <;> rename_i letter
    · simp only [Option.some.injEq, List.cons.injEq, and_true]
      exact ⟨fun same => ⟨same, same ▸ letter⟩, And.left⟩
    · simp only [listed?_eq_some_iff, unlisted, false_and, exists_false, false_iff]
      rintro ⟨⟨⟩, isLetter⟩
      exact letter isLetter
  · rename_i notSingle
    rw [listed?_eq_some_iff, or_iff_right]
    rintro ⟨rfl, -⟩
    exact notSingle c rfl

theorem component?_eq_some_iff (name text : List Char) :
    component? name = some text ↔ Component true name text := by
  constructor
  · simp only [component?, Option.or_eq_some_iff, Option.map_eq_some_iff, uniForm?_eq_some_iff,
      shortForm?_eq_some_iff, character?_eq_some_iff]
    rintro (⟨digits, rfl, some, groups⟩ | ⟨-, ⟨digits, c, rfl, rfl, least, most, number⟩ |
      ⟨-, c, ⟨rfl, letter⟩ | ⟨n, listed, rfl⟩, rfl⟩⟩)
    · exact .groups some groups
    · exact .short least most number
    · exact .letter letter
    · exact .listed listed
  -- No form comes to be tried after another one that gives a different text.
  · rintro (⟨some, groups⟩ | @⟨digits, c, least, most, number⟩ | @⟨c, letter⟩ | listed)
    · have isGroups := (uniForm?_eq_some_iff ..).mpr ⟨_, rfl, some, groups⟩
      simp [component?, isGroups]
    · have isNumber := (shortForm?_eq_some_iff ..).mpr ⟨_, _, rfl, rfl, least, most, number⟩
      have noGroups : uniForm? ('u' :: digits) = none := by
        rw [Option.eq_none_iff_forall_ne_some]
        intro text isGroups
        obtain ⟨rest, same, -⟩ := (uniForm?_eq_some_iff ..).mp isGroups
        exact number.ne_uni rest (List.cons.inj same).2
      simp [component?, noGroups, isNumber]
    · have isLetter := (character?_eq_some_iff [c] c).mpr (.inl ⟨rfl, letter⟩)
      have noNumber : shortForm? [c] = none := by
        rw [Option.eq_none_iff_forall_ne_some]
        intro text isNumber
        obtain ⟨digits, _, ⟨⟩, -, least, -⟩ := (shortForm?_eq_some_iff ..).mp isNumber
        simp at least
      simp only [component?, uniForm?, noNumber, isLetter, Option.none_or, Option.map_some]
    · obtain ⟨noGroups, noNumber, -⟩ := unformed_of_listed listed
      have isListed := (character?_eq_some_iff name _).mpr (.inr ⟨_, listed, rfl⟩)
      simp [component?, noGroups, noNumber, isListed]

theorem Component.unsigned_iff (name text : List Char) :
    Component false name text ↔ Component true name text ∧ '+' ∉ name := by
  constructor
  · rintro (⟨some, groups⟩ | ⟨least, most, number⟩ | letter | listed)
    · obtain ⟨groups, unsigned⟩ := (Groups.unsigned_iff ..).mp groups
      exact ⟨.groups some groups, by simpa using unsigned⟩
    · obtain ⟨number, unsigned⟩ := (Digits.unsigned_iff ..).mp number
      exact ⟨.short least most number, by simpa using unsigned⟩
    · refine ⟨.letter letter, fun mem => ?_⟩
      obtain rfl := List.mem_singleton.mp mem
      simp at letter
    · exact ⟨.listed listed, (unformed_of_listed listed).2.2.1⟩
  · rintro ⟨⟨some, groups⟩ | ⟨least, most, number⟩ | letter | listed, unsigned⟩
    · exact .groups some ((Groups.unsigned_iff ..).mpr ⟨groups, by simpa using unsigned⟩)
    · exact .short least most ((Digits.unsigned_iff ..).mpr ⟨number, by simpa using unsigned⟩)
    · exact .letter letter
    · exact .listed listed

/-! ### Names -/

theorem components?_eq_some_iff (parts : List (List Char)) (text : List Char) :
    components? parts = some text ↔
      ∃ texts, List.Forall₂ (Component true) parts texts ∧ text = texts.flatten := by
  induction parts generalizing text with
  | nil => simp [components?, eq_comm]
  | cons part parts ih =>
      simp only [components?, Option.bind_eq_bind, Option.bind_eq_some_iff, component?_eq_some_iff, ih,
        List.forall₂_cons_left_iff, Option.some.injEq]
      constructor
      · rintro ⟨first, isFirst, _, ⟨texts, areTexts, rfl⟩, rfl⟩
        exact ⟨first :: texts, ⟨first, texts, isFirst, areTexts, rfl⟩, rfl⟩
      · rintro ⟨_, ⟨first, texts, isFirst, areTexts, rfl⟩, rfl⟩
        exact ⟨first, isFirst, _, ⟨texts, areTexts, rfl⟩, rfl⟩

/-- The part of a name before the first point. -/
def base (name : String) : List Char :=
  name.toList.takeWhile fun c => c != '.'

/-- A name whose components all have a text; with `signs`, also by numbers with a plus sign. -/
def Named (signs : Bool) (name : String) (text : String) : Prop :=
  base name ≠ [] ∧ ∃ texts, List.Forall₂ (Component signs) ((base name).splitOn '_') texts ∧
    text = String.ofList texts.flatten

theorem named_iff (name text : String) : Named true name text ↔ text? name = some text := by
  have unfolded : text? name = if (base name).isEmpty then none else
      (components? ((base name).splitOn '_')).map String.ofList := by
    rw [← Text.splitAt_eq_splitOn]
    rfl
  rw [unfolded, Named]
  by_cases empty : base name = []
  · simp [empty]
  · simp only [empty, List.isEmpty_iff, if_false, ne_eq, not_false_eq_true, true_and,
      Option.map_eq_some_iff, components?_eq_some_iff]
    constructor
    · rintro ⟨texts, areTexts, rfl⟩
      exact ⟨_, ⟨texts, areTexts, rfl⟩, rfl⟩
    · rintro ⟨_, ⟨texts, areTexts, rfl⟩, rfl⟩
      exact ⟨texts, areTexts, rfl⟩

/-- No plus sign is between two components, so that a name has one if a component does. -/
theorem Named.unsigned_iff (name text : String) :
    Named false name text ↔ Named true name text ∧ '+' ∉ base name := by
  have components : Component false = fun part text => '+' ∉ part ∧ Component true part text := by
    ext part text
    rw [Component.unsigned_iff, and_comm]
  have parts : (∀ part ∈ (base name).splitOn '_', '+' ∉ part) ↔ '+' ∉ base name := by
    have mem : '+' ∈ ((base name).splitOn '_').flatten ↔ '+' ∈ base name := by
      simp [Text.flatten_splitOn]
    simpa [List.mem_flatten] using not_congr mem
  simp only [Named, components, List.forall₂_and_left, parts]
  tauto

/-- A glyph name has a text just by the grammar that lets a plus sign stand before digits. The grammar
without it gives the same texts, but to the names without a plus sign only. The names of the table are
all found in it, and no others. -/
theorem text?_eq_some_iff (name : String) :
    (∀ text, text? name = some text ↔ Named true name text) ∧
    (∀ text, Named false name text ↔ text? name = some text ∧ '+' ∉ base name) ∧
    ∀ c, listed? name = some c ↔ ∃ n, (name, n) ∈ characterTable ∧ c = Char.ofNat n :=
  ⟨fun text => (named_iff name text).symm,
    fun text => by rw [Named.unsigned_iff, named_iff],
    listed?_eq_some_iff name⟩

/-- With a sign in the place of a digit, a name is taken for the one of a letter. -/
theorem text?_signed : text? "uni+041" = some "A" ∧ ∀ text, ¬ Named false "uni+041" text := by
  refine ⟨by decide +kernel, fun text named => ?_⟩
  exact absurd ((Named.unsigned_iff ..).mp named).2 (by decide +kernel)

end PdfContent.Glyph
