import PdfContent.Proofs.EnclosureCases

/-!
# Keys without a value

In a dictionary the reader looks for the closing `>>` where a key may stand, but not after a key:
there it reads a value, and a single `>` that starts none is passed over. So a `>>` that follows a
key and no value is never the end of the dictionary. The first bracket is passed over as the value,
and the second one is all that is left of the mark: it ends the dictionary if one more bracket comes
after it, and is passed over if not. What follows is then read as further entries.

`operand_missingValue` says this for every dictionary, wherever it stands and whatever follows. It
rests on `Pairs.operand_append`, by which pairs of keys and values come to the same entries whatever
comes after them.
-/

namespace PdfContent.Content

variable {K : Type} [Scalar K] {b : UInt8} {s t k gap rest : Bytes}
  {entries : List (String × Operand K)} {d : Dictionary K} {stack outer : List (Container K)}
  {startLeft : Nat}

/-! ### Pairs of keys and values -/

/-- Keys, each followed by a value, which may be anything that is read as itself wherever a value may
stand. White space and comments may stand anywhere between, and must where a value would go on with
the word of its key. -/
inductive Pairs : List (String × Operand K) → Bytes → Prop
  | nil {gap : Bytes} : Filler isBlank gap → Pairs [] gap
  | cons {value : Operand K} {entries : List (String × Operand K)} {gap k between s later : Bytes} :
      Filler isBlank gap → (∀ b ∈ k, isRegular b) → Filler isBlank between →
      Ends (between ++ s) → Reads (.value value) s → Pairs entries later →
      Pairs ((nameText k, value) :: entries) (gap ++ 0x2F :: k ++ between ++ s ++ later)

theorem Filler.ends_append (filler : Filler isBlank gap) (ends : Ends t) : Ends (gap ++ t) := by
  by_cases nothing : gap = []
  · rw [nothing]
    exact ends
  · exact ends_of_filler filler nothing t

theorem Pairs.ends_append (pairs : Pairs entries s) (ends : Ends t) : Ends (s ++ t) := by
  cases pairs with
  | nil filler => exact filler.ends_append ends
  | @cons value entries gap k between s later filler =>
      have shape : gap ++ 0x2F :: k ++ between ++ s ++ later ++ t =
          gap ++ 0x2F :: (k ++ between ++ s ++ later ++ t) := by simp
      rw [shape]
      exact filler.ends_append (Ends.cons rfl _)

/-- The spellings of the entries of a dictionary are pairs. -/
theorem pairs_of_spelled (spelled : Spelled (.entries entries) s) : Pairs entries s := by
  obtain ⟨w, written⟩ : ∃ w : Written K, w = .entries entries := ⟨_, rfl⟩
  rw [← written] at spelled
  induction spelled generalizing entries with
  | noEntries filler =>
      cases written
      exact .nil filler
  | @entry key value entries gap k between s later filler name filler' nonempty spelled _ _ _ ih =>
      cases written
      rw [← nameText_of_spelled name]
      exact .cons filler name.isRegular filler' (ends_of_filler filler' nonempty s)
        (reads_of_spelled spelled) (ih rfl)
  | _ => cases written

/-- A number is read as itself before anything that ends it. -/
theorem reads_number {value : Operand K} (start : startsNumber b) (all : numberText (b :: s) = b :: s)
    (number : numberValue? (b :: s) = some value) : Reads (.value value) (b :: s) := by
  intro stack rest awaits ends
  have regular := isRegular_of_startsNumber start
  have before : numberText (b :: s ++ rest) = b :: s := by
    rw [numberText_append_of_ends ends, all]
  have after : afterNumber (b :: s ++ rest) = rest := by
    rw [afterNumber, before, List.drop_left]
  rw [List.cons_append, operand_cons awaits (isBlank_of_isRegular regular)
    (ne_of_isRegular regular rfl) (ne_of_isRegular regular rfl), item_of_isRegular regular,
    if_pos start, ← List.cons_append, before, after, number]

/-! ### Steps in a dictionary -/

/-- The pairs become entries, and reading goes on behind them. -/
theorem Pairs.operand_append (pairs : Pairs entries s) (ends : Ends t) :
    operand (.dictionary startLeft d :: outer) (s ++ t) =
      operand (.dictionary startLeft
        (entries.foldl (fun d entry => Dictionary.insert d entry.1 entry.2) d) :: outer) t := by
  induction pairs generalizing d with
  | nil filler => rw [Content.operand_append filler, List.foldl_nil]
  | @cons value entries gap k between s later filler regular filler' ends' reads pairs ih =>
      have shape : gap ++ 0x2F :: k ++ between ++ s ++ later ++ t =
          gap ++ 0x2F :: (k ++ (between ++ (s ++ (later ++ t)))) := by simp
      have laterEnds : Ends (later ++ t) := pairs.ends_append ends
      have keyEnds : Ends (between ++ (s ++ (later ++ t))) := by
        rw [← List.append_assoc]
        exact ends'.append laterEnds
      rw [shape, Content.operand_append filler, operand_key regular keyEnds,
        Content.operand_append filler', reads (.entry startLeft d (nameText k) :: outer) _ trivial
          laterEnds]
      exact ih

/-- A dictionary opens in every place, also where a key may stand. -/
theorem operand_openDictionary :
    operand stack (0x3C :: 0x3C :: t) = operand (.dictionary (t.length + 2) [] :: stack) t := by
  rw [operand_eq_step rfl (by decide)]
  cases stack with
  | nil => rfl
  | cons innermost outer => cases innermost <;> rfl

/-- A dictionary of pairs may itself be the value of a pair. -/
theorem Pairs.reads (pairs : Pairs entries s) :
    Reads (.value (.dictionary (Dictionary.ofList entries))) (0x3C :: 0x3C :: s ++ [0x3E, 0x3E]) := by
  intro stack rest _ _
  have ends : Ends (0x3E :: 0x3E :: rest) := Ends.cons rfl _
  rw [List.append_assoc, List.cons_append, List.cons_append, operand_openDictionary,
    List.cons_append, List.singleton_append, pairs.operand_append ends, operand_closingMark]
  rfl

/-- Where a value may stand, a single closing bracket is none. -/
theorem operand_valueBracket {key : String} :
    operand (.entry startLeft d key :: outer) (0x3E :: t) =
      operand (.dictionary startLeft d :: outer) t := by
  rw [operand_eq_step rfl (by decide)]
  rfl

/-- Where a key may stand, a single closing bracket is passed over. -/
theorem operand_keyBracket (single : t.head? ≠ some 0x3E) :
    operand (.dictionary startLeft d :: outer) (0x3E :: t) =
      operand (.dictionary startLeft d :: outer) t := by
  rw [operand_eq_step rfl (by decide), step, if_neg (by simpa using single), if_neg (by decide)]
  rfl

/-- A key without a value, and the brackets after it. -/
theorem operand_keyAlone (regular : ∀ b ∈ k, isRegular b) (filler : Filler isBlank gap) :
    operand (.dictionary startLeft d :: outer) (0x2F :: k ++ gap ++ 0x3E :: 0x3E :: rest) =
      if rest.head? = some 0x3E then (supply (some (.dictionary d)) outer rest.tail).resume
      else operand (.dictionary startLeft d :: outer) rest := by
  have shape : 0x2F :: k ++ gap ++ 0x3E :: 0x3E :: rest =
      0x2F :: (k ++ (gap ++ 0x3E :: 0x3E :: rest)) := by simp
  have ends : Ends (gap ++ 0x3E :: 0x3E :: rest) := filler.ends_append (Ends.cons rfl _)
  rw [shape, operand_key regular ends, operand_append filler, operand_valueBracket]
  split
  next another =>
    obtain ⟨rest, rfl⟩ : ∃ rest', rest = 0x3E :: rest' := by
      cases rest with
      | nil => cases another
      | cons b rest => exact ⟨rest, by rw [Option.some.inj another]⟩
    exact operand_closingMark
  next single => exact operand_keyBracket single

/-! ### The rest of the content -/

theorem Loop.mem_of_closing (meets : Loop.entries.meets s = .closing rest) : 0x3E ∈ s := by
  have never (u : Bytes) : Meeting.ofKey u ≠ .closing rest := by
    unfold Meeting.ofKey
    split <;> simp
  unfold Loop.meets at meets
  split at meets
  · cases meets
  next b after found =>
    dsimp only at meets
    split at meets
    next closing =>
      obtain ⟨rfl, -⟩ := closing
      apply (skipBlank_suffix s).subset
      rw [found]
      exact List.mem_cons_self ..
    · split at meets
      · exact absurd meets (never after)
      · cases meets

/-- A dictionary ends at a closing bracket only, one of its own: reading goes on from value to value
until there is one. -/
theorem Loop.mem_of_readEntries {value : Option (Operand K)}
    (read : Loop.entries.read startLeft d s = .ok (value, rest)) : 0x3E ∈ s := by
  induction size : s.length using Nat.strongRecOn generalizing s d with
  | ind n ih =>
  rw [Loop.read_eq] at read
  split at read
  next => cases read
  next after closing => exact mem_of_closing closing
  next after passing =>
    have ahead := ahead_of_meets passing
    exact ahead.suffix.subset (ih _ (size ▸ ahead.shorter) read rfl)
  next key place slot =>
    obtain ⟨u, suffix, something, rfl⟩ := place_of_meets slot
    have within : skipBlank u <:+ s := (skipBlank_suffix u).trans suffix
    cases found : operand (K := K) [] (skipBlank u) with
    | error fault => rw [found] at read; cases read
    | ok r =>
        rw [found] at read
        obtain ⟨c, tail, shape⟩ := List.exists_cons_of_ne_nil something
        have ahead : Ahead (skipBlank u) r.2 := by
          rw [shape] at found ⊢
          exact ahead_of_operand found
        have shorter : r.2.length < n := size ▸ (ahead.of_suffix within).shorter
        exact (ahead.of_suffix within).suffix.subset (ih _ shorter read rfl)

/-- A dictionary that is still open when there are no more closing brackets is never closed. -/
theorem operand_neverClosed (never : 0x3E ∉ rest) (outer : List (Container K)) :
    ∃ fault, operand (.dictionary startLeft d :: outer) rest = .error fault := by
  have nested := operand_append_stack (.dictionary startLeft d) [] outer rest
  rw [List.cons_append, List.nil_append] at nested
  rw [nested]
  cases read : operand [.dictionary startLeft d] rest with
  | error fault => exact ⟨fault, rfl⟩
  | ok r => exact absurd (Loop.mem_of_readEntries read) never

/-- Bytes in front of which a dictionary is open are not left as they are. -/
theorem length_of_operand_dictionary {value : Option (Operand K)} {after : Bytes}
    (read : operand (.dictionary startLeft d :: outer) rest = .ok (value, after)) :
    after.length < rest.length := by
  rcases length_of_operand read with shorter | rfl
  · exact shorter
  · cases rest with
    | nil =>
        rw [operand_of_nothing skipBlank.eq_1] at read
        cases read
    | cons b rest => simp

/-- A dictionary whose last key has no value is not closed by the `>>` after that key. With another
`>` right behind, it is closed by that one, and has all pairs before the key; without one it goes on
as a dictionary with these pairs. This is so in every place where the dictionary may stand. Read by
itself it always takes more than up to the `>>`, and where no bracket follows there is only a fault. -/
theorem operand_missingValue (pairs : Pairs entries s) (regular : ∀ b ∈ k, isRegular b)
    (filler : Filler isBlank gap) (rest : Bytes) :
    let written : Bytes := 0x3C :: 0x3C :: (s ++ (0x2F :: k ++ gap ++ 0x3E :: 0x3E :: rest))
    let d := Dictionary.ofList entries
    (∀ stack, operand stack written =
      if rest.head? = some 0x3E then (supply (some (.dictionary d)) stack rest.tail).resume
      else operand (.dictionary written.length d :: stack) rest) ∧
    (∀ value after, operand (K := K) [] written = .ok (value, after) →
      after.length < rest.length) ∧
    (0x3E ∉ rest → ∀ stack : List (Container K), ∃ fault, operand stack written = .error fault) := by
  intro written d
  have whole (stack : List (Container K)) : operand stack written =
      if rest.head? = some 0x3E then (supply (some (.dictionary d)) stack rest.tail).resume
      else operand (.dictionary written.length d :: stack) rest := by
    have ends : Ends (0x2F :: k ++ gap ++ 0x3E :: 0x3E :: rest) := by
      rw [List.append_assoc, List.cons_append]
      exact Ends.cons rfl _
    rw [operand_openDictionary, pairs.operand_append ends, operand_keyAlone regular filler]
    rfl
  refine ⟨whole, ?_, ?_⟩
  · intro value after read
    rw [whole] at read
    split at read
    next another =>
      cases read
      cases rest with
      | nil => cases another
      | cons b rest => exact Nat.lt_succ_self _
    next => exact length_of_operand_dictionary read
  · intro never stack
    have single : rest.head? ≠ some 0x3E := by
      intro another
      exact never (List.mem_of_mem_head? another)
    rw [whole, if_neg single]
    exact operand_neverClosed never stack

/-- The pair `/A 1`. -/
theorem pairs_single : Pairs (K := Int) [("A", .integer 1)] [0x2F, 0x41, 0x20, 0x31] := by
  have bytes : Text.encodeUtf8 "A" = [0x41] := by decide +kernel
  have key : NameSpelled (Text.encodeUtf8 "A") [0x41] := bytes ▸ .plain rfl (by decide) .nil
  have one : Spelled (K := Int) (.value (.integer 1)) [0x31] :=
    .integer (by decide) (by decide) (.unsigned (.digits 0 (by decide)))
  have blank : Filler isBlank [0x20] := .byte rfl .nil
  exact pairs_of_spelled (.entry .nil key blank (by decide) one (by simp [Apart]) (.noEntries .nil))

/-- The content `<</D<</A 1>>/N -7/K >>>ET` has a dictionary in front of `ET`, and the content
`<</D<</A 1>>/N -7/K >>ET` has none. -/
theorem operand_missingValue_third :
    let d : Dictionary Int :=
      Dictionary.ofList [("D", .dictionary [("A", .integer 1)]), ("N", .integer (-7))]
    operand (K := Int) []
        [0x3C, 0x3C, 0x2F, 0x44, 0x3C, 0x3C, 0x2F, 0x41, 0x20, 0x31, 0x3E, 0x3E, 0x2F, 0x4E, 0x20,
          0x2D, 0x37, 0x2F, 0x4B, 0x20, 0x3E, 0x3E, 0x3E, 0x45, 0x54] =
      .ok (some (.dictionary d), [0x45, 0x54]) ∧
    ∃ fault, operand (K := Int) []
        [0x3C, 0x3C, 0x2F, 0x44, 0x3C, 0x3C, 0x2F, 0x41, 0x20, 0x31, 0x3E, 0x3E, 0x2F, 0x4E, 0x20,
          0x2D, 0x37, 0x2F, 0x4B, 0x20, 0x3E, 0x3E, 0x45, 0x54] =
      .error fault := by
  intro d
  have single (b : UInt8) (regular : isRegular b) : ∀ c ∈ [b], isRegular c := by
    intro c among
    rwa [List.mem_singleton.mp among]
  have blank : Filler isBlank [0x20] := .byte rfl .nil
  have key_N : nameText [0x4E] = "N" := by decide +kernel
  have key_D : nameText [0x44] = "D" := by decide +kernel
  have seven : Reads (K := Int) (.value (.integer (-7))) [0x2D, 0x37] := reads_number rfl rfl rfl
  have last := Pairs.cons .nil (single 0x4E rfl) blank (Ends.cons rfl _) seven (.nil .nil)
  have pairs := Pairs.cons .nil (single 0x44 rfl) .nil (Ends.cons rfl _) pairs_single.reads last
  rw [key_N, key_D] at pairs
  constructor
  · have read := operand_missingValue pairs (single 0x4B rfl) blank [0x3E, 0x45, 0x54]
    exact read.1 []
  · have read := operand_missingValue pairs (single 0x4B rfl) blank [0x45, 0x54]
    exact read.2.2 (by decide) []

/-- The content `<</A 1/K>>` is a dictionary with one pair and a key without a value, and reading it
comes to no dictionary. -/
theorem operand_keyAlone_fault :
    Pairs (K := Int) [("A", .integer 1)] [0x2F, 0x41, 0x20, 0x31] ∧
    operand (K := Int) [] [0x3C, 0x3C, 0x2F, 0x41, 0x20, 0x31, 0x2F, 0x4B, 0x3E, 0x3E] ≠
      .ok (some (.dictionary [("A", .integer 1)]), []) ∧
    operand (K := Int) [] [0x3C, 0x3C, 0x2F, 0x41, 0x20, 0x31, 0x2F, 0x4B, 0x3E, 0x3E] =
      .error ⟨.dictionary, 10, 0⟩ := by
  have regular : ∀ b ∈ [0x4B], isRegular b := by
    intro b among
    rw [List.mem_singleton.mp among]
    rfl
  have read : operand (K := Int) []
      [0x3C, 0x3C, 0x2F, 0x41, 0x20, 0x31, 0x2F, 0x4B, 0x3E, 0x3E] =
        .error ⟨.dictionary, 10, 0⟩ := by
    have ends : Ends [0x2F, 0x4B, 0x3E, 0x3E] := Ends.cons rfl _
    refine operand_openDictionary.trans ((pairs_single.operand_append ends).trans ?_)
    refine (operand_keyAlone regular .nil).trans ?_
    rw [if_neg (by simp), operand_of_nothing skipBlank.eq_1]
    rfl
  refine ⟨pairs_single, ?_, read⟩
  rw [read]
  simp

end PdfContent.Content
