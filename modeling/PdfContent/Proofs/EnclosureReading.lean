import PdfContent.Proofs.Enclosures

/-!
# What is closed is read whatever follows on a new line

No reader looks beyond a line end that stands between two pieces of content: words, numbers and
comments end there, and an enclosure that is closed before it has been read up to its closing mark.
So a part that is whole is read in the same way with further lines after it. With nothing after it,
this says that the reader follows the rules of `Whole`.
-/

namespace PdfContent.Content

variable {K : Type} {b : UInt8} {s t rest : Bytes}

/-- There is nothing, or a new line starts. -/
def Fresh (t : Bytes) : Prop := ∀ b ∈ t.head?, b = 0x0A

theorem fresh_nil : Fresh [] := by
  simp [Fresh]

theorem fresh_line (t : Bytes) : Fresh (0x0A :: t) := by
  rintro b ⟨⟩
  rfl

theorem Fresh.ends (fresh : Fresh t) : Ends t := by
  intro b first
  rw [fresh b first]
  rfl

/-! ### Words and what stands between them -/

theorem takeWhile_append_of_stop {p : UInt8 → Bool} (stops : ∀ b ∈ t.head?, p b = false) :
    (s ++ t).takeWhile p = s.takeWhile p := by
  rw [List.takeWhile_append]
  split
  next all =>
    have whole : s.takeWhile p = s := (List.takeWhile_prefix p).eq_of_length all
    cases t with
    | nil => rw [List.takeWhile_nil, List.append_nil, whole]
    | cons b t => rw [List.takeWhile_cons_of_neg (by simp [stops b rfl]), List.append_nil, whole]
  next => rfl

theorem dropWhile_append_of_stop {p : UInt8 → Bool} (stops : ∀ b ∈ t.head?, p b = false) :
    (s ++ t).dropWhile p = s.dropWhile p ++ t := by
  rw [List.dropWhile_append]
  split
  next all =>
    have nothing : s.dropWhile p = [] := by simpa using all
    cases t with
    | nil => simp [nothing]
    | cons b t => rw [List.dropWhile_cons_of_neg (by simp [stops b rfl]), nothing, List.nil_append]
  next => rfl

theorem word_append_fresh (fresh : Fresh t) (s : Bytes) : word (s ++ t) = word s :=
  takeWhile_append_of_stop fresh.ends

theorem afterWord_append_fresh (fresh : Fresh t) (s : Bytes) :
    afterWord (s ++ t) = afterWord s ++ t :=
  dropWhile_append_of_stop fresh.ends

theorem afterComment_append_fresh (fresh : Fresh t) (s : Bytes) :
    afterComment (s ++ t) = afterComment s ++ t := by
  apply dropWhile_append_of_stop
  intro b first
  rw [fresh b first]
  rfl

/-- A comment that is not ended is ended by the new line. -/
theorem skipBlank_append_of_nothing (nothing : skipBlank s = []) (fresh : Fresh t) :
    skipBlank (s ++ t) = skipBlank t := by
  fun_induction skipBlank s with
  | case1 => rfl
  | case2 b rest blank ih => rw [List.cons_append, skipBlank_of_isBlank blank, ih nothing]
  | case3 b rest blank comment ih =>
      rw [List.cons_append, skipBlank, if_neg blank, if_pos comment,
        afterComment_append_fresh fresh, ih nothing]
  | case4 => cases nothing

theorem skipBlank_append_of_found (found : skipBlank s = b :: rest) (fresh : Fresh t) :
    skipBlank (s ++ t) = b :: (rest ++ t) := by
  fun_induction skipBlank s with
  | case1 => cases found
  | case2 c tail blank ih => rw [List.cons_append, skipBlank_of_isBlank blank, ih found]
  | case3 c tail blank comment ih =>
      rw [List.cons_append, skipBlank, if_neg blank, if_pos comment,
        afterComment_append_fresh fresh, ih found]
  | case4 c tail blank comment =>
      cases found
      rw [List.cons_append, skipBlank, if_neg blank, if_neg comment]

/-! ### Numbers -/

theorem signOf_append (b : UInt8) (s t : Bytes) : signOf (b :: s ++ t) = signOf (b :: s) := rfl

theorem numberBody_append_of_ends (ends : Ends t) (pointSeen : Bool) (s : Bytes) :
    numberBody pointSeen (s ++ t) = numberBody pointSeen s := by
  induction s generalizing pointSeen with
  | nil =>
      cases t with
      | nil => rfl
      | cons b t =>
          have noStart : startsNumber b = false := by
            by_contra starts
            have regular := isRegular_of_startsNumber (by simpa using starts)
            cases (ends b rfl).symm.trans regular
          simp only [startsNumber, Bool.or_eq_false_iff] at noStart
          rw [List.nil_append, numberBody, numberBody, if_neg (by simp [noStart]),
            if_neg (by simp [noStart])]
  | cons b s ih =>
      rw [List.cons_append, numberBody, numberBody, ih, ih]

theorem numberBody_isPrefix (pointSeen : Bool) (s : Bytes) : numberBody pointSeen s <+: s := by
  induction s generalizing pointSeen with
  | nil => exact List.prefix_rfl
  | cons b s ih =>
      rw [numberBody]
      split
      · exact List.cons_prefix_cons.mpr ⟨rfl, ih _⟩
      split
      · exact List.cons_prefix_cons.mpr ⟨rfl, ih _⟩
      · exact List.nil_prefix

theorem length_signOf_le (b : UInt8) (s : Bytes) : (signOf (b :: s)).length ≤ 1 := by
  rw [signOf]
  split <;> simp

theorem numberText_append_of_ends (ends : Ends t) (b : UInt8) (s : Bytes) :
    numberText (b :: s ++ t) = numberText (b :: s) := by
  have short : (signOf (b :: s)).length ≤ (b :: s).length := by
    have := length_signOf_le b s
    simp
    omega
  rw [numberText, numberText, signOf_append, List.drop_append_of_le_length short,
    numberBody_append_of_ends ends]

theorem length_numberText_le (b : UInt8) (s : Bytes) :
    (numberText (b :: s)).length ≤ (b :: s).length := by
  have body := (numberBody_isPrefix false ((b :: s).drop (signOf (b :: s)).length)).length_le
  have sign := length_signOf_le b s
  rw [List.length_drop] at body
  rw [numberText, List.length_append]
  simp only [List.length_cons] at body ⊢
  omega

theorem afterNumber_append_of_ends (ends : Ends t) (b : UInt8) (s : Bytes) :
    afterNumber (b :: s ++ t) = afterNumber (b :: s) ++ t := by
  rw [afterNumber, afterNumber, numberText_append_of_ends ends,
    List.drop_append_of_le_length (length_numberText_le b s)]

/-! ### Loops -/

/-- What is met, with more bytes after it. -/
def Meeting.append (t : Bytes) : Meeting → Meeting
  | .nothing => .nothing
  | .closing rest => .closing (rest ++ t)
  | .slot key place => .slot key (place ++ t)
  | .passing rest => .passing (rest ++ t)

theorem Meeting.ofKey_append (fresh : Fresh t) (something : Meeting.ofKey s ≠ .nothing) :
    Meeting.ofKey (s ++ t) = (Meeting.ofKey s).append t := by
  unfold ofKey at something ⊢
  rw [word_append_fresh fresh, afterWord_append_fresh fresh]
  cases found : skipBlank (afterWord s) with
  | nil => simp [found] at something
  | cons b rest =>
      rw [skipBlank_append_of_found found fresh]
      rfl

/-- A loop that meets something meets the same with further lines after it. -/
theorem Loop.meets_append (l : Loop) (fresh : Fresh t) (something : l.meets s ≠ .nothing) :
    l.meets (s ++ t) = (l.meets s).append t := by
  unfold meets at something ⊢
  cases found : skipBlank s with
  | nil => simp [found] at something
  | cons b rest =>
      simp only [found] at something
      rw [skipBlank_append_of_found found fresh]
      cases l with
      | items =>
          dsimp only
          split <;> rfl
      | entries =>
          dsimp only at something ⊢
          -- the second bracket cannot be the first byte of the new line
          have same : (rest ++ t).head? = some 0x3E ↔ rest.head? = some 0x3E := by
            cases rest with
            | nil =>
                constructor
                · intro first
                  exact absurd (fresh _ first) (by decide)
                · intro first
                  cases first
            | cons c rest => rfl
          simp only [same]
          split
          next closing =>
            obtain ⟨-, first⟩ := closing
            obtain ⟨c, rest, rfl⟩ : ∃ c rest', rest = c :: rest' := by
              cases rest with
              | nil => cases first
              | cons c rest => exact ⟨c, rest, rfl⟩
            rfl
          next open_ =>
            rw [if_neg open_] at something
            split
            next key =>
              rw [if_pos key] at something
              exact Meeting.ofKey_append fresh something
            next => rfl
      | parameters =>
          dsimp only at something ⊢
          rw [word_append_fresh fresh, afterWord_append_fresh fresh]
          split
          next key =>
            rw [if_pos key] at something
            exact Meeting.ofKey_append fresh something
          split
          · split <;> rfl
          · rfl

/-! ### Values -/

section Reading

variable [Scalar K]

/-- A value by itself is what starts at its first byte. -/
theorem operand_nil_cons (blank : isBlank b = false) (comment : b ≠ 0x25) (rest : Bytes) :
    operand (K := K) [] (b :: rest) = (item [] b rest).resume :=
  operand_eq_step blank comment rest

theorem item_hexDigits {digits : Bytes} (single : digits.head? ≠ some 0x3C)
    (digits_open : 0x3E ∉ digits) (rest : Bytes) :
    item (K := K) [] 0x3C (digits ++ 0x3E :: rest) =
      .done (some (.hexadecimal (pairDigits (digits.filterMap hexValue?)))) rest := by
  have noDictionary : ∀ after, digits ++ 0x3E :: rest ≠ 0x3C :: after := by
    intro after same
    cases digits with
    | nil => cases same
    | cons c digits =>
        rw [List.cons_append] at same
        exact single (congrArg some (List.cons.inj same).1)
  have inside : ∀ c ∈ digits, c ≠ 0x3E := by
    rintro c among rfl
    exact digits_open among
  rw [item.eq_def, if_neg (by decide), if_pos (by decide)]
  split
  next same => exact absurd same (noDictionary _)
  next => rw [hexString, hexBody_append inside, afterHex_append inside]; rfl

theorem apart_of_isStray (stray : isStray b) :
    b ≠ 0x28 ∧ b ≠ 0x3C ∧ b ≠ 0x5B ∧ b ≠ 0x2F ∧ startsNumber b = false ∧ isRegular b = false := by
  obtain rfl | rfl | rfl | rfl | rfl := eq_of_isStray stray <;> decide

theorem item_stray (stray : isStray b) (rest : Bytes) :
    item (K := K) [] b rest = .done none rest := by
  obtain ⟨literal, hexadecimal, array, name, number, regular⟩ := apart_of_isStray stray
  rw [item.eq_def, if_neg (by simpa using literal), if_neg (by simpa using hexadecimal),
    if_neg (by simpa using array), if_neg (by simpa using name), if_neg (by simp [number]),
    if_neg (by simp [regular])]
  rfl

/-- The reader reads the part, also with further lines after it. -/
def Part.Read : Part K → Bytes → Bytes → Prop
  | .value v, s, rest => ∀ t, Fresh t → operand [] (s ++ t) = .ok (v, rest ++ t)
  | .loop l before all, s, rest => ∀ startLeft t, Fresh t →
      l.read startLeft before (s ++ t) = .ok (l.result all, rest ++ t)

theorem Whole.read {part : Part K} (whole : Whole K part s rest) : part.Read s rest := by
  induction whole with
  | @literal value text rest body =>
      intro t _
      have read : literal? 0 (text ++ 0x29 :: (rest ++ t)) = some (value, rest ++ t) :=
        literal?_eq_some_iff.mpr ⟨text, body, rfl⟩
      rw [List.cons_append, List.cons_append, List.append_assoc, List.cons_append,
        operand_nil_cons rfl (by decide), item.eq_def, if_pos (by decide), read]
      rfl
  | @hexadecimal digits rest single open_ =>
      intro t _
      rw [List.cons_append, List.cons_append, List.append_assoc, List.cons_append,
        operand_nil_cons rfl (by decide), item_hexDigits single open_]
      rfl
  | @array values s rest _ ih =>
      intro t fresh
      rw [List.cons_append, loopsAdvance.openArray]
      exact ih _ t fresh
  | @dictionary d s rest _ ih =>
      intro t fresh
      rw [List.cons_append, List.cons_append, loopsAdvance.openDictionary]
      exact ih _ t fresh
  | name s =>
      intro t fresh
      rw [List.cons_append, operand_nil_cons rfl (by decide), item.eq_def, if_neg (by decide),
        if_neg (by decide), if_neg (by decide), if_pos (by decide), word_append_fresh fresh,
        afterWord_append_fresh fresh]
      rfl
  | number s starts =>
      intro t fresh
      have regular := isRegular_of_startsNumber starts
      rw [List.cons_append, operand_nil_cons (isBlank_of_isRegular regular)
        (ne_of_isRegular regular rfl), item_of_isRegular regular, if_pos starts,
        ← List.cons_append, numberText_append_of_ends fresh.ends,
        afterNumber_append_of_ends fresh.ends]
      rfl
  | word s regular start =>
      intro t fresh
      rw [List.cons_append, operand_nil_cons (isBlank_of_isRegular regular)
        (ne_of_isRegular regular rfl), item_of_isRegular regular, if_neg (by simp [start]),
        word_append_fresh fresh, afterWord_append_fresh fresh]
      rfl
  | @stray b s stray =>
      intro t _
      obtain ⟨blank, comment⟩ := visible_of_isStray stray
      rw [List.cons_append, operand_nil_cons blank comment, item_stray stray]
      rfl
  | @closed l data s rest meets =>
      intro startLeft t fresh
      rw [Loop.read_eq, l.meets_append fresh (by simp [meets]), meets]
      rfl
  | @passed l before all s t rest meets _ ih =>
      intro startLeft u fresh
      rw [Loop.read_eq, l.meets_append fresh (by simp [meets]), meets]
      exact ih startLeft u fresh
  | @filled l before all key value s t u rest meets _ _ ih ih' =>
      intro startLeft v fresh
      rw [Loop.read_eq, l.meets_append fresh (by simp [meets]), meets]
      dsimp only [Meeting.append]
      rw [ih v fresh]
      exact ih' startLeft v fresh

/-- With nothing after the part, what is read is what the rules say. -/
theorem Whole.read_value {value : Option (Operand K)} (whole : Whole K (.value value) s rest) :
    operand [] s = .ok (value, rest) := by
  have read := whole.read [] fresh_nil
  rwa [List.append_nil, List.append_nil] at read

theorem Whole.read_loop {l : Loop} {before all : l.Data K}
    (whole : Whole K (.loop l before all) s rest) (startLeft : Nat) :
    l.read startLeft before s = .ok (l.result all, rest) := by
  have read := whole.read startLeft [] fresh_nil
  rwa [List.append_nil, List.append_nil] at read

end Reading

end PdfContent.Content
