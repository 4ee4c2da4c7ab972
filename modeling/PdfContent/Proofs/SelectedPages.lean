import Mathlib.Data.List.Forall2
import Mathlib.Data.List.Sort
import Mathlib.Data.Nat.Digits.Defs
import Mathlib.Data.Set.List
import PdfContent.PageSelection
import PdfContent.Proofs.TextParts

/-!
# The pages of a selection

A grammar for the texts that select pages: what spells a number, what selects a span of pages, and
which parts a selection has. Reading a selection is compared with it in both directions, so that a
text which the grammar does not have is refused, and one that it has is answered with the places that
it names.

Blanks may stand around parts, and around the numbers in them. Reading trims a part before it is cut
at its first hyphen, and trims each number after that. The grammar says nothing of the first: it does
not matter how often a text is trimmed.
-/

namespace PdfContent

namespace Decimal

variable {text digits : List Char} {n : Nat}

/-- Decimal digits and their value, if it has at most 64 bits. -/
structure Digits (digits : List Char) (n : Nat) : Prop where
  some_digit : digits ≠ []
  all : ∀ c ∈ digits, c.isDigit
  value : n = Nat.ofDigits 10 (digits.reverse.map fun c => c.toNat - '0'.toNat)
  fits : n < 2 ^ 64

/-- Digits spell a number, and one plus sign may stand before them. -/
inductive Spells : List Char → Nat → Prop
  | plain {numeral : List Char} {value : Nat} : Digits numeral value → Spells numeral value
  | signed {numeral : List Char} {value : Nat} : Digits numeral value → Spells ('+' :: numeral) value

theorem ofDigits_eq (digits : List Char) :
    ofDigits digits = Nat.ofDigits 10 (digits.reverse.map fun c => c.toNat - '0'.toNat) := by
  induction digits using List.reverseRecOn with
  | nil => rfl
  | append_singleton digits c ih =>
      have last : ofDigits (digits ++ [c]) = ofDigits digits * 10 + (c.toNat - '0'.toNat) :=
        List.foldl_append ..
      rw [last, ih, List.reverse_append, List.reverse_singleton, List.singleton_append, List.map_cons,
        Nat.ofDigits_cons, Nat.mul_comm, Nat.add_comm]

/-- Reading digits without a sign. -/
theorem digits_iff :
    (if digits.isEmpty || !digits.all Char.isDigit then none
      else if ofDigits digits < 0x10000000000000000 then some (ofDigits digits) else none) = some n ↔
      Digits digits n := by
  constructor
  · intro read
    split at read
    · cases read
    next accepted =>
      obtain ⟨some_digit, all⟩ : digits ≠ [] ∧ ∀ c ∈ digits, c.isDigit := by simpa using accepted
      split at read
      next fits =>
        cases read
        exact ⟨some_digit, all, ofDigits_eq digits, fits⟩
      · cases read
  · rintro ⟨some_digit, all, value, fits⟩
    rw [← ofDigits_eq] at value
    have accepted : ¬ (digits.isEmpty || !digits.all Char.isDigit) := by simpa using ⟨some_digit, all⟩
    rw [if_neg accepted, if_pos (value ▸ fits), value]

theorem natural?_eq_some_iff : natural? text = some n ↔ Spells text n := by
  by_cases sign : ∃ digits, text = '+' :: digits
  · obtain ⟨digits, rfl⟩ := sign
    refine digits_iff.trans ⟨.signed, fun spells => ?_⟩
    cases spells with
    | plain plus => exact absurd (plus.all '+' List.mem_cons_self) (by decide)
    | signed digits => exact digits
  · have unsigned : natural? text = if text.isEmpty || !text.all Char.isDigit then none
        else if ofDigits text < 0x10000000000000000 then some (ofDigits text) else none := by
      unfold natural?
      split
      next => exact absurd ⟨_, rfl⟩ sign
      · rfl
    rw [unsigned, digits_iff]
    refine ⟨.plain, fun spells => ?_⟩
    cases spells with
    | plain digits => exact digits
    | signed => exact absurd ⟨_, rfl⟩ sign

/-- What spells a number has neither blanks nor hyphens. -/
theorem Spells.visible (spells : Spells text n) : ∀ c ∈ text, Text.isBlank c = false ∧ c ≠ '-' := by
  have digit {c : Char} (isDigit : c.isDigit) : Text.isBlank c = false ∧ c ≠ '-' := by
    have bounds : 48 ≤ c.toNat ∧ c.toNat ≤ 57 := by
      simpa [Char.isDigit, UInt32.le_iff_toNat_le] using isDigit
    constructor
    · simp only [Text.isBlank, Text.blankRanges, List.any_cons, List.any_nil, Bool.or_eq_false_iff,
        Bool.and_eq_false_iff, decide_eq_false_iff_not, and_true]
      omega
    · rintro rfl
      exact absurd bounds.1 (by decide)
  cases spells with
  | plain digits => exact fun c mem => digit (digits.all c mem)
  | signed digits =>
      exact List.forall_mem_cons.mpr ⟨by decide, fun c mem => digit (digits.all c mem)⟩

end Decimal

namespace PageSelection

variable {count first last : Nat} {part text left right : List Char}

/-- The number of a page, blanks around it or not. -/
structure IsPage (count : Nat) (text : List Char) (n : Nat) : Prop where
  spelled : ∃ before numeral after, Text.Blank before ∧ Text.Blank after ∧
    text = before ++ numeral ++ after ∧ Decimal.Spells numeral n
  positive : 1 ≤ n
  within : n ≤ count

/-- A part that selects the pages from one number to another: a page, a range of pages, or a range
that runs to the last page. -/
inductive Selects (count : Nat) : List Char → Nat → Nat → Prop
  | page {text : List Char} {n : Nat} : IsPage count text n → Selects count text n n
  | range {left right : List Char} {first last : Nat} : IsPage count left first →
      IsPage count right last → first ≤ last → Selects count (left ++ '-' :: right) first last
  | toLast {left right : List Char} {first : Nat} : IsPage count left first → Text.Blank right →
      Selects count (left ++ '-' :: right) first count

/-! ### Pages -/

theorem spelled_iff {n : Nat} :
    (∃ before numeral after, Text.Blank before ∧ Text.Blank after ∧
      text = before ++ numeral ++ after ∧ Decimal.Spells numeral n) ↔
      Decimal.Spells (Text.trim text) n := by
  constructor
  · rintro ⟨before, numeral, after, blankBefore, blankAfter, rfl, spells⟩
    rwa [Text.trim_padded blankBefore blankAfter,
      Text.trim_of_visible fun c mem => (spells.visible c mem).1]
  · intro spells
    obtain ⟨before, after, blankBefore, blankAfter, whole⟩ := Text.exists_padding text
    exact ⟨before, _, after, blankBefore, blankAfter, whole, spells⟩

theorem page_eq_ok_iff {n : Nat} : page count text = .ok n ↔ IsPage count text n := by
  have read : IsPage count text n ↔
      Decimal.natural? (Text.trim text) = some n ∧ 1 ≤ n ∧ n ≤ count := by
    rw [Decimal.natural?_eq_some_iff, ← spelled_iff]
    exact ⟨fun ⟨spelled, positive, within⟩ => ⟨spelled, positive, within⟩,
      fun ⟨spelled, positive, within⟩ => ⟨spelled, positive, within⟩⟩
  rw [read, page]
  cases number : Decimal.natural? (Text.trim text) with
  | none => simp
  | some m =>
      cases m with
      | zero =>
          rw [Option.some.injEq]
          exact ⟨nofun, fun ⟨zero, positive, _⟩ => absurd (zero ▸ positive) (by decide)⟩
      | succ m =>
          simp only
          rw [Option.some.injEq]
          split
          next beyond => exact ⟨nofun, fun ⟨same, _, within⟩ => absurd within (by omega)⟩
          next within =>
            rw [Except.ok.injEq]
            exact ⟨fun same => ⟨same, by omega, by omega⟩, And.left⟩

theorem IsPage.hyphen_notMem {n : Nat} (isPage : IsPage count text n) : '-' ∉ text := by
  obtain ⟨before, numeral, after, blankBefore, blankAfter, rfl, spells⟩ := isPage.spelled
  simp only [List.mem_append, not_or]
  exact ⟨⟨fun mem => absurd (blankBefore _ mem) (by decide), fun mem => (spells.visible _ mem).2 rfl⟩,
    fun mem => absurd (blankAfter _ mem) (by decide)⟩

theorem IsPage.not_blank {n : Nat} (isPage : IsPage count text n) : ¬ Text.Blank text := by
  intro blank
  have spells := spelled_iff.mp isPage.spelled
  rw [Text.trim_eq_nil_iff.mpr blank] at spells
  cases spells with
  | plain digits => exact digits.some_digit rfl

/-! ### Spans -/

/-- A span is accepted unless its ends are reversed. -/
theorem accepted_iff {a b : Nat} :
    (if b < a then throw (.reversed part) else .ok ⟨a, b⟩ : Except Problem Span) = .ok ⟨first, last⟩ ↔
      a = first ∧ b = last ∧ first ≤ last := by
  split
  next reversed => exact ⟨nofun, fun ⟨rfl, rfl, ordered⟩ => absurd reversed (Nat.not_lt.mpr ordered)⟩
  next ordered =>
    rw [Except.ok.injEq, Span.mk.injEq]
    exact ⟨fun ⟨rfl, rfl⟩ => ⟨rfl, rfl, Nat.not_lt.mp ordered⟩, fun ⟨rfl, rfl, _⟩ => ⟨rfl, rfl⟩⟩

/-- A part without a hyphen is that of a single page. -/
theorem span_of_notMem (whole : '-' ∉ part) :
    span count part = .ok ⟨first, last⟩ ↔ IsPage count part first ∧ last = first := by
  rw [← page_eq_ok_iff, span, Text.cutAt?_eq_none_iff.mpr whole]
  simp only [bind, Except.bind, pure, Except.pure]
  cases page count part with
  | error => exact ⟨nofun, nofun⟩
  | ok n =>
      simp only [accepted_iff, Except.ok.injEq]
      omega

/-- A part with hyphens is cut at the first one. -/
theorem span_of_append (whole : '-' ∉ left) (right : List Char) :
    span count (left ++ '-' :: right) = .ok ⟨first, last⟩ ↔ IsPage count left first ∧
      (IsPage count right last ∨ Text.Blank right ∧ last = count) ∧ first ≤ last := by
  rw [← page_eq_ok_iff, span, Text.cutAt?_append whole]
  simp only [bind, Except.bind, pure, Except.pure]
  cases page count left with
  | error => exact ⟨nofun, nofun⟩
  | ok n =>
      rw [Except.ok.injEq]
      by_cases toLast : Text.Blank right
      · have unnumbered : ¬ IsPage count right last := fun isPage => isPage.not_blank toLast
        have nothing : (Text.trim right).isEmpty = true :=
          List.isEmpty_iff.mpr (Text.trim_eq_nil_iff.mpr toLast)
        simp only [nothing, if_true, accepted_iff, unnumbered, toLast, false_or, true_and,
          @eq_comm _ last count]
      · have something : (Text.trim right).isEmpty = false :=
          Bool.eq_false_iff.mpr (mt List.isEmpty_iff.mp (mt Text.trim_eq_nil_iff.mp toLast))
        simp only [something, Bool.false_eq_true, if_false, toLast, false_and, or_false,
          ← page_eq_ok_iff]
        cases page count right with
        | error => exact ⟨nofun, nofun⟩
        | ok m => simp only [accepted_iff, Except.ok.injEq]

/-! ### Parts -/

/-- In a part with hyphens the grammar has no other reading than that of its first hyphen. -/
theorem selects_append_iff (whole : '-' ∉ left) (right : List Char) :
    Selects count (left ++ '-' :: right) first last ↔ IsPage count left first ∧
      (IsPage count right last ∨ Text.Blank right ∧ last = count) ∧ first ≤ last := by
  constructor
  · intro selects
    generalize same : left ++ '-' :: right = part at selects
    have cut {left' right' : List Char} {n : Nat} (isPage : IsPage count left' n)
        (same : left ++ '-' :: right = left' ++ '-' :: right') : left = left' ∧ right = right' := by
      have parts := Text.cutAt?_append whole right
      rw [same, Text.cutAt?_append isPage.hyphen_notMem] at parts
      simpa [eq_comm] using parts
    cases selects with
    | page isPage => exact absurd (by simp [← same]) isPage.hyphen_notMem
    | range isFirst isLast ordered =>
        obtain ⟨rfl, rfl⟩ := cut isFirst same
        exact ⟨isFirst, .inl isLast, ordered⟩
    | toLast isFirst blank =>
        obtain ⟨rfl, rfl⟩ := cut isFirst same
        exact ⟨isFirst, .inr ⟨blank, rfl⟩, isFirst.within⟩
  · rintro ⟨isFirst, isLast | ⟨blank, rfl⟩, ordered⟩
    · exact .range isFirst isLast ordered
    · exact .toLast isFirst blank

theorem selects_iff_of_notMem (whole : '-' ∉ part) :
    Selects count part first last ↔ IsPage count part first ∧ last = first := by
  constructor
  · intro selects
    cases selects with
    | page isPage => exact ⟨isPage, rfl⟩
    | range | toLast => simp at whole
  · rintro ⟨isPage, rfl⟩
    exact .page isPage

/-- It does not matter how often a number is trimmed. -/
theorem IsPage.congr {n : Nat} (same : Text.trim text = Text.trim part) :
    IsPage count text n ↔ IsPage count part n := by
  rw [← page_eq_ok_iff, ← page_eq_ok_iff, page, page, same]

/-- The span of a part is that which the grammar gives it. -/
theorem span_trim_eq_ok_iff :
    span count (Text.trim part) = .ok ⟨first, last⟩ ↔ Selects count part first last := by
  by_cases whole : '-' ∈ part
  · obtain ⟨left, right, rfl, isFirst⟩ := List.eq_append_cons_of_mem whole
    have isFirst' : '-' ∉ left.dropWhile Text.isBlank :=
      fun mem => isFirst (List.dropWhile_subset _ mem)
    have blank : Text.Blank (right.rdropWhile Text.isBlank) ↔ Text.Blank right := by
      rw [← Text.trim_eq_nil_iff, Text.trim_rdropWhile, Text.trim_eq_nil_iff]
    rw [Text.trim_append_cons (by decide), span_of_append isFirst', selects_append_iff isFirst,
      IsPage.congr (Text.trim_dropWhile left), IsPage.congr (Text.trim_rdropWhile right), blank]
  · have whole' : '-' ∉ Text.trim part := by
      obtain ⟨before, after, -, -, padded⟩ := Text.exists_padding part
      intro mem
      refine whole ?_
      rw [padded]
      simp [mem]
    rw [span_of_notMem whole', selects_iff_of_notMem whole,
      IsPage.congr (Text.trim_trim part)]

/-! ### Lists of places -/

theorem mem_withoutRepeats {a : Nat} (s : List Nat) : a ∈ withoutRepeats s ↔ a ∈ s := by
  fun_induction withoutRepeats s with
  | case1 b rest ih => rw [ih]; simp
  | case2 b c rest _ ih => rw [List.mem_cons, ih, ← List.mem_cons]
  | case3 => rfl

/-- What is left of a list in order is in strict order. -/
theorem pairwise_withoutRepeats {s : List Nat} (ordered : s.Pairwise (· ≤ ·)) :
    (withoutRepeats s).Pairwise (· < ·) := by
  fun_induction withoutRepeats s with
  | case1 b rest ih => exact ih ordered.of_cons
  | case2 b c rest other ih =>
      refine List.pairwise_cons.mpr ⟨fun d mem => ?_, ih ordered.of_cons⟩
      have first : b ≤ c := (List.pairwise_cons.mp ordered).1 c List.mem_cons_self
      obtain rfl | later := List.mem_cons.mp ((mem_withoutRepeats _).mp mem)
      · exact lt_of_le_of_ne first other
      · have next : c ≤ d := (List.pairwise_cons.mp ordered.of_cons).1 d later
        exact lt_of_lt_of_le (lt_of_le_of_ne first other) next
  | case3 s short =>
      match s with
      | [] => exact .nil
      | [b] => exact List.pairwise_singleton ..
      | b :: c :: rest => exact absurd rfl (short b c rest)

theorem Span.mem_places {s : Span} (positive : 1 ≤ s.first) {place : Nat} :
    place ∈ s.places ↔ s.first ≤ place + 1 ∧ place + 1 ≤ s.last := by
  rw [Span.places, List.mem_range'_1]
  omega

/-! ### Selections -/

/-- The parts of a selection that are not blank; there is one at least, and each selects pages. -/
structure WellFormed (count : Nat) (selection : String) : Prop where
  some_part : ∃ part ∈ selection.toList.splitOn ',', ¬ Text.Blank part
  selects : ∀ part ∈ selection.toList.splitOn ',', ¬ Text.Blank part →
    ∃ first last, Selects count part first last

/-- A selection names a place if one of its parts selects the page with the next number. -/
def Names (count : Nat) (selection : String) (place : Nat) : Prop :=
  ∃ part ∈ selection.toList.splitOn ',', ∃ first last, Selects count part first last ∧
    first ≤ place + 1 ∧ place + 1 ≤ last

/-- The places of a selection: those that it names, in order and once each. -/
structure IsSelection (count : Nat) (selection : String) (places : List Nat) : Prop where
  wellFormed : WellFormed count selection
  increasing : places.Pairwise (· < ·)
  mem_iff : ∀ place, place ∈ places ↔ Names count selection place
  within : ∀ place ∈ places, place < count

theorem Selects.bounds (selects : Selects count part first last) :
    1 ≤ first ∧ first ≤ last ∧ last ≤ count := by
  cases selects with
  | page isPage => exact ⟨isPage.positive, Nat.le_refl _, isPage.within⟩
  | range isFirst isLast ordered => exact ⟨isFirst.positive, ordered, isLast.within⟩
  | toLast isFirst _ => exact ⟨isFirst.positive, isFirst.within, Nat.le_refl _⟩

/-- A blank part selects nothing: it has neither a number nor a hyphen. -/
theorem Selects.not_blank (selects : Selects count part first last) : ¬ Text.Blank part := by
  cases selects with
  | page isPage => exact isPage.not_blank
  | range | toLast => exact fun blank => absurd (blank '-' (by simp)) (by decide)

theorem mem_parts {selection : String} {text : List Char} :
    text ∈ parts selection ↔
      ∃ part ∈ selection.toList.splitOn ',', ¬ Text.Blank part ∧ Text.trim part = text := by
  simp only [parts, Text.splitAt_eq_splitOn, List.mem_filter, List.mem_map, Bool.not_eq_true',
    List.isEmpty_eq_false_iff, ne_eq]
  constructor
  · rintro ⟨⟨part, mem, rfl⟩, visible⟩
    exact ⟨part, mem, mt Text.trim_eq_nil_iff.mpr visible, rfl⟩
  · rintro ⟨part, mem, visible, rfl⟩
    exact ⟨⟨part, mem, rfl⟩, mt Text.trim_eq_nil_iff.mp visible⟩

theorem mapM_eq_ok_iff {α β ε : Type} {f : α → Except ε β} {s : List α} {values : List β} :
    s.mapM f = .ok values ↔ s.map f = values.map .ok := by
  induction s generalizing values with
  | nil => cases values <;> simp [pure, Except.pure]
  | cons a rest ih =>
      rw [List.mapM_cons, List.map_cons]
      cases first : f a with
      | error e => cases values <;> simp [bind, Except.bind]
      | ok b =>
          cases later : rest.mapM f with
          | error e => cases values <;> simp [bind, Except.bind, ← ih, later]
          | ok bs => cases values <;> simp [bind, Except.bind, pure, Except.pure, ← ih, later]

/-- A selection is answered when all of its parts are, and there are some. -/
theorem places_eq_ok_iff_spans {selection : String} {pages : List Nat} :
    places count selection = .ok pages ↔ ∃ spans, (parts selection).map (span count) = spans.map .ok ∧
      spans ≠ [] ∧ pages = withoutRepeats ((spans.flatMap Span.places).mergeSort (· ≤ ·)) := by
  simp only [← mapM_eq_ok_iff]
  rw [places]
  cases (parts selection).mapM (span count) with
  | error => simp [bind, Except.bind]
  | ok spans =>
      cases spans with
      | nil => simp [bind, Except.bind, throw, throwThe, MonadExceptOf.throw]
      | cons s rest => simp [bind, Except.bind, pure, Except.pure, eq_comm]

/-- The spans of the parts are those that the grammar gives them. -/
theorem mem_spans {selection : String} {spans : List Span}
    (read : (parts selection).map (span count) = spans.map .ok) :
    ⟨first, last⟩ ∈ spans ↔ ∃ part ∈ selection.toList.splitOn ',', Selects count part first last := by
  have ok : ⟨first, last⟩ ∈ spans ↔ .ok ⟨first, last⟩ ∈ (parts selection).map (span count) := by
    rw [read]
    simp
  simp only [ok, List.mem_map, mem_parts]
  constructor
  · rintro ⟨_, ⟨part, mem, _, rfl⟩, isSpan⟩
    exact ⟨part, mem, span_trim_eq_ok_iff.mp isSpan⟩
  · rintro ⟨part, mem, selects⟩
    exact ⟨_, ⟨part, mem, selects.not_blank, rfl⟩, span_trim_eq_ok_iff.mpr selects⟩

theorem isSelection_of_places {selection : String} {pages : List Nat}
    (answered : places count selection = .ok pages) : IsSelection count selection pages := by
  obtain ⟨spans, read, some_span, rfl⟩ := places_eq_ok_iff_spans.mp answered
  have names (place : Nat) :
      place ∈ withoutRepeats ((spans.flatMap Span.places).mergeSort (· ≤ ·)) ↔
        Names count selection place := by
    rw [mem_withoutRepeats, List.mem_mergeSort, List.mem_flatMap]
    constructor
    · rintro ⟨⟨first, last⟩, mem, isPlace⟩
      obtain ⟨part, isPart, selects⟩ := (mem_spans read).mp mem
      exact ⟨part, isPart, first, last, selects, (Span.mem_places selects.bounds.1).mp isPlace⟩
    · rintro ⟨part, isPart, first, last, selects, isPlace⟩
      exact ⟨⟨first, last⟩, (mem_spans read).mpr ⟨part, isPart, selects⟩,
        (Span.mem_places selects.bounds.1).mpr isPlace⟩
  have ordered : ((spans.flatMap Span.places).mergeSort (· ≤ ·)).Pairwise (· ≤ ·) := by
    simpa using @List.pairwise_mergeSort Nat (fun a b => decide (a ≤ b))
      (by simpa using fun _ _ _ => Nat.le_trans) (by simpa using Nat.le_total) _
  refine ⟨⟨?_, ?_⟩, pairwise_withoutRepeats ordered, names, ?_⟩
  · obtain ⟨⟨first, last⟩, mem⟩ := List.exists_mem_of_ne_nil _ some_span
    obtain ⟨part, isPart, selects⟩ := (mem_spans read).mp mem
    exact ⟨part, isPart, selects.not_blank⟩
  · intro part isPart visible
    have isRead : span count (Text.trim part) ∈ spans.map .ok := by
      rw [← read]
      exact List.mem_map_of_mem (mem_parts.mpr ⟨part, isPart, visible, rfl⟩)
    obtain ⟨⟨first, last⟩, -, isSpan⟩ := List.mem_map.mp isRead
    exact ⟨first, last, span_trim_eq_ok_iff.mp isSpan.symm⟩
  · intro place mem
    obtain ⟨part, -, first, last, selects, -, before⟩ := (names place).mp mem
    exact Nat.lt_of_lt_of_le before selects.bounds.2.2

/-- What is well-formed is answered. -/
theorem WellFormed.exists_places {selection : String} (wellFormed : WellFormed count selection) :
    ∃ pages, places count selection = .ok pages := by
  have all : (parts selection).map (span count) ∈ Set.range (List.map Except.ok) := by
    rw [Set.range_list_map]
    intro answer mem
    obtain ⟨text, isText, rfl⟩ := List.mem_map.mp mem
    obtain ⟨part, isPart, visible, rfl⟩ := mem_parts.mp isText
    obtain ⟨first, last, selects⟩ := wellFormed.selects part isPart visible
    exact ⟨⟨first, last⟩, (span_trim_eq_ok_iff.mpr selects).symm⟩
  obtain ⟨spans, read⟩ := all
  refine ⟨_, places_eq_ok_iff_spans.mpr ⟨spans, read.symm, ?_, rfl⟩⟩
  obtain ⟨part, isPart, visible⟩ := wellFormed.some_part
  rintro rfl
  have mem := mem_parts.mpr ⟨part, isPart, visible, rfl⟩
  rw [List.map_nil, eq_comm, List.map_eq_nil_iff] at read
  rw [read] at mem
  cases mem

theorem IsSelection.unique {selection : String} {pages pages' : List Nat}
    (isSelection : IsSelection count selection pages)
    (again : IsSelection count selection pages') : pages = pages' :=
  isSelection.increasing.eq_of_mem_iff again.increasing fun place =>
    (isSelection.mem_iff place).trans (again.mem_iff place).symm

/-- For every text and every number of pages, a selection is answered just if it is well-formed: by the
places that it names, in strict order and all of them places of pages. Every other text is refused. -/
theorem places_eq_ok_iff (count : Nat) (selection : String) :
    (∀ pages, places count selection = .ok pages ↔ IsSelection count selection pages) ∧
    ((∃ pages, places count selection = .ok pages) ↔ WellFormed count selection) ∧
    ((∃ problem, places count selection = .error problem) ↔ ¬ WellFormed count selection) := by
  have answered : (∃ pages, places count selection = .ok pages) ↔ WellFormed count selection :=
    ⟨fun ⟨_, read⟩ => (isSelection_of_places read).wellFormed, WellFormed.exists_places⟩
  refine ⟨fun pages => ⟨isSelection_of_places, fun isSelection => ?_⟩, answered, ?_⟩
  · obtain ⟨pages', read⟩ := isSelection.wellFormed.exists_places
    rw [read, isSelection.unique (isSelection_of_places read)]
  · rw [← answered]
    cases places count selection with
    | error problem => simp
    | ok pages => simp

example : places 12 " 1-3,+7 , 10-,2" = .ok [0, 1, 2, 6, 9, 10, 11] := by cbv

end PageSelection

end PdfContent
