import PdfContent.Font.Overflow
import PdfContent.Proofs.EnclosureReading
import PdfContent.Proofs.TokenTurns
import PdfContent.Scalar.Whole

/-!
# The items of literal strings

What stands between the parentheses of a literal string is a sequence of items: bytes that are
themselves, what a backslash starts, and pairs of parentheses around further items. How long an
octal code is, and whether a line feed belongs to the line end before it, depends on the byte after
the item, which is part of the next one. The rules here name that byte and no reader; the reader is
shown to read exactly the strings that they spell.
-/

namespace PdfContent.Content

/-- A letter that stands for a control byte when a backslash is before it. -/
inductive ControlLetter : (letter control : UInt8) → Prop
  | n : ControlLetter 0x6E 0x0A
  | r : ControlLetter 0x72 0x0D
  | t : ControlLetter 0x74 0x09
  | b : ControlLetter 0x62 0x08
  | f : ControlLetter 0x66 0x0C

/-- The number that octal digits spell after the digits of `n`. -/
def octalValue (n : Nat) (digits : Bytes) : Nat :=
  digits.foldl (fun n d => n * 8 + (d.toNat - 0x30)) n

/-- The text of one item without parentheses, and its value. The byte after the text is `after`. -/
inductive SimpleItem (after : UInt8) : (value text : Bytes) → Prop
  | plain {b : UInt8} : b ≠ 0x5C → b ≠ 0x28 → b ≠ 0x29 → SimpleItem after [b] [b]
  | control {letter control : UInt8} : ControlLetter letter control →
      SimpleItem after [control] [0x5C, letter]
  | quoted {b : UInt8} : (∀ control, ¬ControlLetter b control) → isOctalDigit b = false →
      b ≠ 0x0D → b ≠ 0x0A → SimpleItem after [b] [0x5C, b]
  | code {digits : Bytes} : 1 ≤ digits.length → digits.length ≤ 3 → (∀ d ∈ digits, isOctalDigit d) →
      (digits.length < 3 → isOctalDigit after = false) →
      SimpleItem after [UInt8.ofNat (octalValue 0 digits % 256)] (0x5C :: digits)
  | lineFeed : SimpleItem after [] [0x5C, 0x0A]
  | returnAndLineFeed : SimpleItem after [] [0x5C, 0x0D, 0x0A]
  | returnAlone : after ≠ 0x0A → SimpleItem after [] [0x5C, 0x0D]

/-- The text of a sequence of items, and the values of all of them. A closing parenthesis is the
byte after the last one. -/
inductive ItemsSpelled : (value text : Bytes) → Prop
  | nil : ItemsSpelled [] []
  | item {value text value' text' : Bytes} : SimpleItem (text'.headD 0x29) value text →
      ItemsSpelled value' text' → ItemsSpelled (value ++ value') (text ++ text')
  | group {value text value' text' : Bytes} : ItemsSpelled value text →
      ItemsSpelled value' text' →
      ItemsSpelled (0x28 :: value ++ 0x29 :: value') (0x28 :: text ++ 0x29 :: text')

/-! ### What a backslash starts -/

theorem escapeValue_of_controlLetter {letter control : UInt8} (is : ControlLetter letter control) :
    escapeValue letter = control := by
  cases is <;> rfl

theorem escapeValue_eq_self {b : UInt8} (no : ∀ control, ¬ControlLetter b control) :
    escapeValue b = b := by
  simp only [escapeValue, beq_iff_eq]
  split
  case isTrue n => subst n; exact absurd .n (no _)
  split
  case isTrue r => subst r; exact absurd .r (no _)
  split
  case isTrue t => subst t; exact absurd .t (no _)
  split
  case isTrue b => subst b; exact absurd .b (no _)
  split
  case isTrue f => subst f; exact absurd .f (no _)
  rfl

theorem ControlLetter.not_special {letter control : UInt8} (is : ControlLetter letter control) :
    letter ≠ 0x0D ∧ letter ≠ 0x0A ∧ isOctalDigit letter = false := by
  cases is <;> decide

theorem ne_lineEnd_of_isOctalDigit {d : UInt8} (digit : isOctalDigit d) :
    d ≠ 0x0D ∧ d ≠ 0x0A := by
  constructor <;> rintro rfl <;> exact absurd digit (by decide)

theorem ofNat_mod_256 (n : Nat) : UInt8.ofNat (n % 256) = UInt8.ofNat n :=
  UInt8.ofNat_mod_size

/-- Digits are read up to the limit, or up to a byte that is none. -/
theorem octal_digits {digits rest : Bytes} {limit : Nat} (fits : digits.length ≤ limit)
    (octals : ∀ d ∈ digits, isOctalDigit d)
    (ends : digits.length < limit → isOctalDigit (rest.headD 0x29) = false) (n : Nat) :
    octal n limit (digits ++ rest) = (octalValue n digits, rest) := by
  induction digits generalizing n limit with
  | nil =>
      cases limit with
      | zero => rfl
      | succ limit =>
          cases rest with
          | nil => rfl
          | cons b rest =>
              have digit : isOctalDigit b = false := ends (Nat.zero_lt_succ _)
              simp [octal, octalValue, digit]
  | cons d digits ih =>
      cases limit with
      | zero => simp at fits
      | succ limit =>
          rw [List.cons_append, octal, if_pos (octals d List.mem_cons_self)]
          exact ih (Nat.le_of_succ_le_succ fits)
            (fun d' member => octals d' (List.mem_cons_of_mem _ member))
            (fun fewer => ends (Nat.succ_lt_succ fewer)) _

/-- All bytes start with digits of which as many are read as the limit allows. -/
theorem exists_octal_digits (limit : Nat) (s : Bytes) :
    ∃ digits rest, s = digits ++ rest ∧ digits.length ≤ limit ∧ (∀ d ∈ digits, isOctalDigit d) ∧
      (digits.length < limit → isOctalDigit (rest.headD 0x29) = false) := by
  induction limit generalizing s with
  | zero => exact ⟨[], s, rfl, Nat.le_refl _, by simp, fun fewer => absurd fewer (by simp)⟩
  | succ limit ih =>
      cases s with
      | nil => exact ⟨[], [], rfl, Nat.zero_le _, by simp, fun _ => by decide⟩
      | cons b s =>
          by_cases digit : isOctalDigit b
          · obtain ⟨digits, rest, rfl, fits, octals, ends⟩ := ih s
            exact ⟨b :: digits, rest, rfl, Nat.succ_le_succ fits, by simpa [digit] using octals,
              fun fewer => ends (Nat.lt_of_succ_lt_succ fewer)⟩
          · exact ⟨[], b :: s, rfl, Nat.zero_le _, by simp, fun _ => by simpa using digit⟩

/-- What is read as an escape is an item, and the byte after it is the first that is left. -/
theorem exists_item_of_escape (c : UInt8) (s : Bytes) :
    ∃ used, s = used ++ (escape c s).2 ∧
      SimpleItem ((escape c s).2.headD 0x29) (escape c s).1 (0x5C :: c :: used) := by
  by_cases cr : c = 0x0D
  · subst cr
    match s with
    | 0x0A :: s => exact ⟨[0x0A], rfl, .returnAndLineFeed⟩
    | [] => exact ⟨[], rfl, .returnAlone (by decide)⟩
    | b :: s =>
        by_cases lf : b = 0x0A
        · subst lf
          exact ⟨[0x0A], rfl, .returnAndLineFeed⟩
        · have left : escape 0x0D (b :: s) = ([], b :: s) := by simp [escape, lf]
          rw [left]
          exact ⟨[], rfl, .returnAlone lf⟩
  by_cases lf : c = 0x0A
  · subst lf
    exact ⟨[], rfl, .lineFeed⟩
  by_cases digit : isOctalDigit c
  · obtain ⟨digits, rest, rfl, fits, octals, ends⟩ := exists_octal_digits 2 s
    have read : escape c (digits ++ rest) =
        ([UInt8.ofNat (octalValue 0 (c :: digits) % 256)], rest) := by
      rw [ofNat_mod_256]
      simp [escape, cr, lf, digit, octal_digits fits octals ends, octalValue]
    rw [read]
    exact ⟨digits, rfl, .code (Nat.le_add_left ..) (Nat.succ_le_succ fits)
      (by simpa [digit] using octals) fun fewer => ends (Nat.lt_of_succ_lt_succ fewer)⟩
  · have read : escape c s = ([escapeValue c], s) := by simp [escape, cr, lf, digit]
    rw [read]
    refine ⟨[], rfl, ?_⟩
    by_cases control : ∃ control, ControlLetter c control
    · obtain ⟨control, is⟩ := control
      rw [escapeValue_of_controlLetter is]
      exact .control is
    · have no : ∀ control, ¬ControlLetter c control := not_exists.mp control
      rw [escapeValue_eq_self no]
      exact .quoted no (by simpa using digit) cr lf

/-- An item with a backslash is read as an escape, whatever follows the byte after it. -/
theorem SimpleItem.escape {c : UInt8} {value used rest : Bytes}
    (item : SimpleItem (rest.headD 0x29) value (0x5C :: c :: used)) :
    escape c (used ++ rest) = (value, rest) := by
  cases item with
  | control is =>
      obtain ⟨cr, lf, digit⟩ := is.not_special
      simp [Content.escape, cr, lf, digit, escapeValue_of_controlLetter is]
  | quoted no digit cr lf => simp [Content.escape, cr, lf, digit, escapeValue_eq_self no]
  | code _ fits octals ends =>
      have digit := octals c List.mem_cons_self
      obtain ⟨cr, lf⟩ := ne_lineEnd_of_isOctalDigit digit
      have read : octal (c.toNat - 0x30) 2 (used ++ rest) =
          (octalValue (c.toNat - 0x30) used, rest) :=
        octal_digits (Nat.le_of_succ_le_succ fits)
          (fun d member => octals d (List.mem_cons_of_mem _ member))
          (fun fewer => ends (Nat.succ_lt_succ fewer)) _
      rw [ofNat_mod_256]
      simp [Content.escape, cr, lf, digit, read, octalValue]
  | lineFeed => rfl
  | returnAndLineFeed => rfl
  | returnAlone noLineFeed =>
      cases rest with
      | nil => rfl
      | cons b rest =>
          have lf : b ≠ 0x0A := noLineFeed
          simp [Content.escape, lf]

/-! ### Whole strings -/

theorem LiteralText.itemsSpelled {value text : Bytes} (body : LiteralText value text) :
    ItemsSpelled value text := by
  induction body with
  | nil => exact .nil
  | @plain b value text plain _ ih =>
      simp only [needsBackslash, Bool.or_eq_true, beq_iff_eq, not_or] at plain
      exact .item (.plain plain.2 plain.1.1 plain.1.2) ih
  | pair _ _ ih ih' => exact .group ih ih'
  | @escaped c value text _ ih =>
      obtain ⟨used, shape, item⟩ := exists_item_of_escape c text
      have whole : 0x5C :: c :: text = (0x5C :: c :: used) ++ (escape c text).2 :=
        congrArg (fun s => 0x5C :: c :: s) shape
      rw [whole]
      exact .item item ih

theorem ItemsSpelled.literalText {value text : Bytes} (items : ItemsSpelled value text) :
    LiteralText value text := by
  induction items with
  | nil => exact .nil
  | @item value text value' text' item _ ih =>
      have escaped {c : UInt8} {used : Bytes}
          (item : SimpleItem (text'.headD 0x29) value (0x5C :: c :: used)) :
          LiteralText (value ++ value') (0x5C :: c :: (used ++ text')) := by
        have body : LiteralText ((Content.escape c (used ++ text')).1 ++ value')
            (0x5C :: c :: (used ++ text')) :=
          .escaped (by rwa [item.escape])
        rwa [item.escape] at body
      cases item with
      | plain backslash opening closing =>
          exact .plain (by simp [needsBackslash, backslash, opening, closing]) ih
      | control is => exact escaped (.control is)
      | quoted no digit cr lf => exact escaped (.quoted no digit cr lf)
      | @code digits some fits octals ends =>
          cases digits with
          | nil => simp at some
          | cons d digits => exact escaped (.code some fits octals ends)
      | lineFeed => exact escaped .lineFeed
      | returnAndLineFeed => exact escaped .returnAndLineFeed
      | returnAlone noLineFeed => exact escaped (.returnAlone noLineFeed)
  | group _ _ ih ih' => exact .pair ih ih'

theorem literalText_iff {value text : Bytes} : LiteralText value text ↔ ItemsSpelled value text :=
  ⟨LiteralText.itemsSpelled, ItemsSpelled.literalText⟩

section Reading

variable {K : Type} [Scalar K]

/-- A parenthesis is the start of a token just if it is closed. -/
theorem next_parenthesis (s value rest : Bytes) :
    next (K := K) (0x28 :: s) = .ok (some (.operand (.literal value), rest)) ↔
      literal? 0 s = some (value, rest) := by
  have parts : operand (K := K) [] (0x28 :: s) =
      (literal? 0 s).elim (.error ⟨.literalString, s.length + 1, 0⟩) fun read =>
        .ok (some (.literal read.1), read.2) := by
    rw [operand_nil_cons rfl (by decide), item.eq_def, if_pos (by decide)]
    cases literal? 0 s <;> rfl
  have place : Place.of (0x28 :: s) = .value (0x28 :: s) := by
    rw [Place.of, skipBlank_cons rfl (by decide)]
    rfl
  rw [next_eq, place]
  dsimp only
  rw [parts]
  cases literal? 0 s with
  | none => simp [Except.bind]
  | some r => simp [Except.bind, Prod.ext_iff]

end Reading

/-! ### Open parentheses in a word

Nothing bounds how deep parentheses are nested. The program counts them in a word of 32 bits, and a
count that does not fit ends it.
-/

/-- The value of a literal string in which so many parentheses are open, its own included, and what
follows its closing one. -/
def countedLiteral (opened : UInt32) : Bytes → Except Overflow (Option (Bytes × Bytes))
  | [] => .ok none
  | b :: rest =>
    if b == 0x28 then
      (exactSum opened 1).bind fun deeper =>
        (countedLiteral deeper rest).map (Option.map fun r => (b :: r.1, r.2))
    else if b == 0x29 then
      if opened == 1 then .ok (some ([], rest))
      else (countedLiteral (opened - 1) rest).map (Option.map fun r => (b :: r.1, r.2))
    else if b == 0x5C then
      match rest with
      | [] => .ok none
      | c :: rest =>
        (countedLiteral opened (escape c rest).2).map
          (Option.map fun r => ((escape c rest).1 ++ r.1, r.2))
    else (countedLiteral opened rest).map (Option.map fun r => (b :: r.1, r.2))
termination_by s => s.length
decreasing_by
  · simp
  · simp
  · have := length_escape_le c rest
    simp; omega
  · simp

/-- The count goes up with a byte of the string, so it fits as long as the string is not too long. -/
theorem countedLiteral_eq {depth : Nat} {s : Bytes} {opened : UInt32}
    (counts : opened.toNat = depth + 1) (fits : opened.toNat + s.length < 2 ^ 32) :
    countedLiteral opened s = .ok (literal? depth s) := by
  fun_induction literal? depth s generalizing opened with
  | case1 => rw [countedLiteral]
  | case2 depth b rest opens ih =>
    rw [List.length_cons] at fits
    have one : (1 : UInt32).toNat = 1 := rfl
    obtain ⟨deeper, sum⟩ : ∃ deeper, exactSum opened 1 = .ok deeper :=
      ⟨opened + 1, if_pos (by omega)⟩
    have value : deeper.toNat = opened.toNat + 1 := exactSum_eq_ok_iff.mp sum
    rw [countedLiteral.eq_def]
    simp only [opens, if_true, sum, Except.bind]
    rw [ih (by omega) (by omega)]
    rfl
  | case3 b rest opens closes =>
    obtain rfl : opened = 1 := UInt32.toNat_inj.mp counts
    rw [countedLiteral.eq_def]
    simp [opens, closes]
  | case4 b rest opens closes depth ih =>
    have more : (opened == 1) = false := beq_false_of_ne fun one => by simp [one] at counts
    have one : (1 : UInt32).toNat = 1 := rfl
    have least : (1 : UInt32) ≤ opened := UInt32.le_iff_toNat_le.mpr (by omega)
    have value : (opened - 1).toNat = opened.toNat - 1 := UInt32.toNat_sub_of_le _ _ least
    rw [List.length_cons] at fits
    rw [countedLiteral.eq_def]
    simp only [opens, closes, more, if_true]
    rw [ih (by omega) (by omega)]
    rfl
  | case5 depth b opens closes escapes =>
    rw [countedLiteral.eq_def]
    simp [opens, closes, escapes]
  | case6 depth b opens closes escapes c rest ih =>
    have shorter := length_escape_le c rest
    simp only [List.length_cons] at fits
    rw [countedLiteral.eq_def]
    simp only [opens, closes, escapes, if_true]
    rw [ih counts (by omega)]
    rfl
  | case7 depth b rest opens closes escapes ih =>
    rw [List.length_cons] at fits
    rw [countedLiteral.eq_def]
    simp only [opens, closes, escapes]
    rw [ih counts (by omega)]
    rfl

/-- A literal string is read, by itself and as the next token, just if its text is a sequence of
items and its own parenthesis follows; its value is that of the items, and what follows the
parenthesis is left. Counting the open parentheses in a word makes no difference to content of less
than `2 ^ 32` bytes. -/
theorem literalString_reads_items {K : Type} [Scalar K] (s value rest : Bytes) :
    (literal? 0 s = some (value, rest) ↔
        ∃ text, ItemsSpelled value text ∧ s = text ++ 0x29 :: rest) ∧
      (next (K := K) (0x28 :: s) = .ok (some (.operand (.literal value), rest)) ↔
        ∃ text, ItemsSpelled value text ∧ s = text ++ 0x29 :: rest) ∧
      ((0x28 :: s).length < 2 ^ 32 → (countedLiteral 1 s = .ok (some (value, rest)) ↔
        ∃ text, ItemsSpelled value text ∧ s = text ++ 0x29 :: rest)) := by
  have items : literal? 0 s = some (value, rest) ↔
      ∃ text, ItemsSpelled value text ∧ s = text ++ 0x29 :: rest := by
    simp only [literal?_eq_some_iff, literalText_iff]
  refine ⟨items, (next_parenthesis s value rest).trans items, fun fits => ?_⟩
  have one : (1 : UInt32).toNat = 1 := rfl
  rw [List.length_cons] at fits
  rw [countedLiteral_eq one (by omega), Except.ok.injEq, items]

/-- Parentheses inside the string, one of them behind a backslash, and an octal code. -/
theorem literalString_reads_items_nested :
    let s : Bytes := [0x61, 0x28, 0x5C, 0x28, 0x62, 0x29, 0x5C, 0x36, 0x35, 0x29, 0x63]
    let value : Bytes := [0x61, 0x28, 0x28, 0x62, 0x29, 0x35]
    (∃ text, ItemsSpelled value text ∧ s = text ++ [0x29, 0x63]) ∧ (0x28 :: s).length < 2 ^ 32 ∧
      countedLiteral 1 s = .ok (some (value, [0x63])) := by
  intro s value
  have fits : (0x28 :: s).length < 2 ^ 32 := by decide
  obtain ⟨read, -, counted⟩ := literalString_reads_items (K := Int) s value [0x63]
  have items := read.mp (by decide +kernel)
  exact ⟨items, fits, (counted fits).mpr items⟩

end PdfContent.Content
