import Mathlib.Data.String.Basic
import PdfContent.Content.TokenStream
import PdfContent.Proofs.Scanning
import PdfContent.Scalar.Whole

/-!
# Reading content back

Every spelling of a sequence of operands and operators is read as that sequence. Inside arrays and
dictionaries the reader has a stack of open containers; a value is handed to the innermost one, in
the same way for every value. So the statement for a value is about any stack, and the one for what
stands between brackets is about what the container has already and ends with its closing bracket.
Both are one induction on the spelling.
-/

namespace PdfContent

variable {K : Type}

namespace Dictionary

variable {d : Dictionary K} {key : String} {value : Operand K} {entries : List (String × Operand K)}

theorem mem_insert {x : String × Operand K} (among : x ∈ d.insert key value) :
    x = (key, value) ∨ x ∈ d := by
  induction d with
  | nil => exact .inl (by simpa [Dictionary.insert] using among)
  | cons y d ih =>
      rw [Dictionary.insert] at among
      split at among
      · exact (List.mem_cons.mp among).imp_right (List.mem_cons_of_mem _)
      split at among
      · exact List.mem_cons.mp among
      · rcases List.mem_cons.mp among with rfl | among
        · exact .inr (List.mem_cons_self ..)
        · exact (ih among).imp_right (List.mem_cons_of_mem _)

/-- Setting a key keeps the keys in order, each once. -/
theorem sorted_insert (sorted : d.Sorted) : (d.insert key value).Sorted := by
  induction d with
  | nil => exact List.pairwise_singleton ..
  | cons y d ih =>
      obtain ⟨first, later⟩ := List.pairwise_cons.mp sorted
      rw [Dictionary.insert]
      split
      case isTrue same =>
        have same : key = y.1 := by simpa using same
        exact List.pairwise_cons.mpr ⟨fun x among => same ▸ first x among, later⟩
      split
      case isTrue before =>
        refine List.pairwise_cons.mpr ⟨fun x among => ?_, sorted⟩
        rcases List.mem_cons.mp among with rfl | among
        · exact before
        · exact before.trans (first x among)
      case isFalse other notBefore =>
        have after : y.1 < key :=
          lt_of_le_of_ne (not_lt.mp notBefore) fun same => other (beq_iff_eq.mpr same.symm)
        refine List.pairwise_cons.mpr ⟨fun x among => ?_, ih later⟩
        rcases mem_insert among with rfl | among
        · exact after
        · exact first x among

theorem insert_perm (fresh : key ∉ d.map Prod.fst) :
    (d.insert key value).Perm ((key, value) :: d) := by
  induction d with
  | nil => exact .refl _
  | cons y d ih =>
      simp only [List.map_cons, List.mem_cons, not_or] at fresh
      rw [Dictionary.insert, if_neg (by simpa using fresh.1)]
      split
      · exact .refl _
      · exact ((ih fresh.2).cons y).trans (.swap ..)

/-- Entries with distinct keys that are set one after another. -/
theorem foldl_insert (sorted : d.Sorted)
    (distinct : (entries.map Prod.fst ++ d.map Prod.fst).Nodup) :
    let all := entries.foldl (fun d entry => Dictionary.insert d entry.1 entry.2) d
    Sorted all ∧ all.Perm (entries ++ d) := by
  induction entries generalizing d with
  | nil => exact ⟨sorted, .refl _⟩
  | cons x entries ih =>
      rw [List.map_cons, List.cons_append, List.nodup_cons] at distinct
      have fresh : x.1 ∉ d.map Prod.fst := fun old =>
        distinct.1 (List.mem_append_right (entries.map Prod.fst) old)
      have added : (d.insert x.1 x.2).Perm (x :: d) := insert_perm fresh
      have keys : (entries.map Prod.fst ++ (d.insert x.1 x.2).map Prod.fst).Perm
          (x.1 :: (entries.map Prod.fst ++ d.map Prod.fst)) :=
        ((added.map Prod.fst).append_left _).trans List.perm_middle
      obtain ⟨sorted, perm⟩ := ih (sorted_insert sorted)
        (keys.nodup_iff.mpr (List.nodup_cons.mpr distinct))
      exact ⟨sorted, perm.trans ((added.append_left _).trans List.perm_middle)⟩

/-- The order in which entries with distinct keys are given does not matter. -/
theorem ofList_eq_of_perm (sorted : d.Sorted) (perm : entries.Perm d) :
    Dictionary.ofList entries = d := by
  have distinct : (d.map Prod.fst).Nodup :=
    List.pairwise_map.mpr (sorted.imp fun before => before.ne)
  obtain ⟨sorted', perm'⟩ := foldl_insert (d := []) List.Pairwise.nil
    (by simpa using (perm.map Prod.fst).nodup_iff.mpr distinct)
  exact ((perm'.trans (by simpa using perm)).eq_of_pairwise
    (fun x y _ _ before after => absurd (before.trans after) (lt_irrefl _)) sorted' sorted)

end Dictionary

namespace Content

open Text (encodeUtf8)

variable [Scalar K] {s rest : Bytes} {stack : List (Container K)} {b : UInt8}

/-! ### Steps of the reader -/

/-- What reading comes to after a step. -/
def Step.resume : Step K → Except Fault (Option (Operand K) × Bytes)
  | .next stack rest => operand stack rest
  | .done value rest => .ok (value, rest)
  | .fail fault => .error fault

theorem operand_of_skipBlank (found : skipBlank s = b :: rest) :
    operand stack s = (step stack b rest).resume := by
  rw [operand.eq_def]
  split
  next nothing => cases found.symm.trans nothing
  next b' rest' found' =>
    cases found.symm.trans found'
    split <;> rename_i same <;> rw [same] <;> rfl

theorem operand_of_nothing (nothing : skipBlank s = []) :
    operand stack s = match stack with
      | [] => .ok (none, [])
      | innermost :: _ => .error innermost.unclosed := by
  rw [operand.eq_def]
  split
  next => rfl
  next found => cases nothing.symm.trans found

/-- White space and comments before a value do not matter. -/
theorem operand_append {gap : Bytes} (filler : Filler isBlank gap) (s : Bytes) :
    operand stack (gap ++ s) = operand stack s := by
  have same := skipBlank_append filler s
  cases found : skipBlank s with
  | nil => rw [operand_of_nothing found, operand_of_nothing (same.trans found)]
  | cons b rest => rw [operand_of_skipBlank found, operand_of_skipBlank (same.trans found)]

theorem operand_eq_step (blank : isBlank b = false) (comment : b ≠ 0x25) (rest : Bytes) :
    operand stack (b :: rest) = (step stack b rest).resume :=
  operand_of_skipBlank (skipBlank_cons blank comment rest)

/-- A value may come next, and not a key. -/
def AwaitsValue : List (Container K) → Prop
  | .dictionary _ _ :: _ => False
  | _ => True

theorem operand_cons (awaits : AwaitsValue stack) (blank : isBlank b = false) (comment : b ≠ 0x25)
    (closing : b ≠ 0x5D) (rest : Bytes) :
    operand stack (b :: rest) = (item stack b rest).resume := by
  rw [operand_eq_step blank comment]
  congr 1
  cases stack with
  | nil => rfl
  | cons innermost outer =>
      cases innermost with
      | array => rw [step, if_neg (by simpa using closing)]
      | dictionary => exact awaits.elim
      | entry => rfl

theorem ne_of_isRegular {c : UInt8} (regular : isRegular b) (delimiter : isDelimiter c) :
    b ≠ c := by
  rintro rfl
  simp [isRegular, delimiter] at regular

theorem isBlank_of_isRegular (regular : isRegular b) : isBlank b = false := by
  simp only [isRegular, Bool.and_eq_true, Bool.not_eq_true'] at regular
  exact regular.1

theorem eq_of_isStray (stray : isStray b) :
    b = 0x5D ∨ b = 0x7B ∨ b = 0x7D ∨ b = 0x29 ∨ b = 0x3E := by
  simpa [isStray, or_assoc] using stray

theorem isStray_of_isRegular (regular : isRegular b) : isStray b = false := by
  by_contra stray
  obtain rfl | rfl | rfl | rfl | rfl := eq_of_isStray (by simpa using stray) <;> cases regular

/-! ### What starts at a byte -/

theorem item_literal (value : Bytes) :
    item stack 0x28 (literalText value ++ 0x29 :: rest) =
      supply (some (.literal value)) stack rest := by
  rw [item.eq_def, if_pos (by decide), literal?_literalText]

theorem item_hexadecimal {value : Bytes} (spelled : HexSpelled value s) :
    item stack 0x3C (s ++ 0x3E :: rest) = supply (some (.hexadecimal value)) stack rest := by
  have single : ∀ after, s ++ 0x3E :: rest ≠ 0x3C :: after := fun after same => by
    cases s with
    | nil => cases same
    | cons b s => exact spelled.ne rfl b (List.mem_cons_self ..) (List.cons.inj same).1
  rw [item.eq_def, if_neg (by decide), if_pos (by decide)]
  split
  next same => exact absurd same (single _)
  next => rw [hexString_of_spelled spelled, afterHex_append (spelled.ne rfl)]

theorem item_name {text : String} (spelled : NameSpelled (encodeUtf8 text) s) (ends : Ends rest) :
    item stack 0x2F (s ++ rest) = supply (some (.name text)) stack rest := by
  rw [item.eq_def, if_neg (by decide), if_neg (by decide), if_neg (by decide), if_pos (by decide),
    word_append spelled.isRegular ends, afterWord_append spelled.isRegular ends,
    nameText_of_spelled spelled]

theorem item_of_isRegular (regular : isRegular b) (rest : Bytes) :
    item stack b rest =
      if startsNumber b then
        supply (numberValue? (numberText (b :: rest))) stack (afterNumber (b :: rest))
      else supply (some (constant (Text.decodeUtf8 (b :: word rest)))) stack (afterWord rest) := by
  rw [item.eq_def, if_neg (by simpa using ne_of_isRegular regular (c := 0x28) rfl),
    if_neg (by simpa using ne_of_isRegular regular (c := 0x3C) rfl),
    if_neg (by simpa using ne_of_isRegular regular (c := 0x5B) rfl),
    if_neg (by simpa using ne_of_isRegular regular (c := 0x2F) rfl), if_pos regular]

theorem IsWord.exists_cons {text : String} (isWord : IsWord text) :
    ∃ b s, encodeUtf8 text = b :: s ∧ startsNumber b = false ∧ isRegular b ∧
      (∀ c ∈ s, isRegular c) ∧ ∀ c ∈ b :: s, isGraphic c := by
  obtain ⟨b, s, shape⟩ := List.exists_cons_of_ne_nil isWord.nonempty
  have graphic := shape ▸ isWord.graphic
  exact ⟨b, s, shape, isWord.start b (by rw [shape]; rfl), (graphic b (List.mem_cons_self ..)).2,
    fun c among => (graphic c (List.mem_cons_of_mem _ among)).2, fun c among => (graphic c among).1⟩

theorem isWord_null : IsWord "null" := by
  constructor <;> decide +kernel

theorem isWord_boolean (b : Bool) : IsWord (if b then "true" else "false") := by
  cases b <;> constructor <;> decide +kernel

/-- A word where a value may stand. -/
theorem operand_word {text : String} (isWord : IsWord text) (awaits : AwaitsValue stack)
    (ends : Ends rest) :
    operand stack (encodeUtf8 text ++ rest) =
      (supply (some (constant text)) stack rest).resume := by
  obtain ⟨b, s, shape, start, first, later, _⟩ := isWord.exists_cons
  rw [shape, List.cons_append, operand_cons awaits (isBlank_of_isRegular first)
    (ne_of_isRegular first rfl) (ne_of_isRegular first rfl), item_of_isRegular first,
    if_neg (by simp [start]), word_append later ends, afterWord_append later ends, ← shape,
    Text.decodeUtf8_encodeUtf8]

theorem operand_integer {i : Int} (spelled : IntegerSpelled i s) (least : minInteger ≤ i)
    (greatest : i ≤ maxInteger) (awaits : AwaitsValue stack) (ends : Ends rest) :
    operand stack (s ++ rest) = (supply (some (.integer i)) stack rest).resume := by
  obtain ⟨b, t, rfl, start⟩ := spelled.exists_cons
  have regular := isRegular_of_startsNumber start
  rw [List.cons_append, operand_cons awaits (isBlank_of_isRegular regular)
    (ne_of_isRegular regular rfl) (ne_of_isRegular regular rfl), item_of_isRegular regular,
    if_pos start, ← List.cons_append, numberText_of_spelled spelled ends,
    afterNumber_of_spelled spelled ends, numberValue?_of_spelled spelled least greatest]

/-! ### Keys and brackets of dictionaries -/

section Dictionaries

variable {k t : Bytes} {startLeft : Nat} {d : Dictionary K} {outer : List (Container K)}

/-- A key opens an entry. -/
theorem operand_key (regular : ∀ b ∈ k, isRegular b) (ends : Ends t) :
    operand (.dictionary startLeft d :: outer) (0x2F :: (k ++ t)) =
      operand (.entry startLeft d (nameText k) :: outer) t := by
  rw [operand_eq_step rfl (by decide), step, if_neg (by simp), if_pos (by decide),
    word_append regular ends, afterWord_append regular ends, Step.resume]

theorem operand_closingMark :
    operand (.dictionary startLeft d :: outer) (0x3E :: 0x3E :: t) =
      (supply (some (.dictionary d)) outer t).resume := by
  rw [operand_eq_step rfl (by decide)]
  rfl

end Dictionaries

/-! ### Values -/

/-- A spelling is read as what it stands for, whatever follows: a value in any place where one may
stand, and what stands between brackets up to its closing bracket. -/
def Reads : Written K → Bytes → Prop
  | .value v, s => ∀ stack rest, AwaitsValue stack → Ends rest →
      operand stack (s ++ rest) = (supply (some v) stack rest).resume
  | .items values, s => ∀ startLeft before outer rest,
      operand (.array startLeft before :: outer) (s ++ 0x5D :: rest) =
        (supply (some (.array (before ++ values))) outer rest).resume
  | .entries entries, s => ∀ startLeft before outer rest,
      operand (.dictionary startLeft before :: outer) (s ++ 0x3E :: 0x3E :: rest) =
        (supply (some (.dictionary
          (entries.foldl (fun d entry => Dictionary.insert d entry.1 entry.2) before))) outer
          rest).resume

theorem Apart.ends {later closing : Bytes} (apart : Apart isBlank later) (ends : Ends closing) :
    Ends (later ++ closing) := by
  cases later with
  | nil => exact ends
  | cons b later =>
      refine Ends.cons ?_ _
      rcases apart b rfl with blank | rfl
      · simp [isRegular, blank]
      · rfl

theorem ends_of_filler {gap : Bytes} (filler : Filler isBlank gap) (nonempty : gap ≠ [])
    (s : Bytes) :
    Ends (gap ++ s) := by
  cases filler with
  | nil => exact absurd rfl nonempty
  | byte blank => exact Ends.cons (by simp [isRegular, blank]) _
  | comment => exact Ends.cons rfl _

section Containers

variable {gap later : Bytes} {value : Operand K} {values : List (Operand K)}
  {entries : List (String × Operand K)}

theorem reads_array (ih : Reads (.items values) s) :
    Reads (.value (.array values)) (0x5B :: s ++ [0x5D]) := by
  intro stack rest awaits _
  rw [List.append_assoc, List.cons_append, operand_cons awaits rfl (by decide) (by decide),
    List.singleton_append]
  exact ih _ [] stack rest

theorem reads_dictionary {d : Dictionary K} (ih : Reads (.entries entries) s) (sorted : d.Sorted)
    (perm : entries.Perm d) :
    Reads (.value (.dictionary d)) (0x3C :: 0x3C :: s ++ [0x3E, 0x3E]) := by
  intro stack rest awaits _
  rw [List.append_assoc, List.cons_append, operand_cons awaits rfl (by decide) (by decide)]
  refine (ih _ [] stack rest).trans ?_
  rw [← Dictionary.ofList, Dictionary.ofList_eq_of_perm sorted perm]

theorem reads_noItems (filler : Filler isBlank gap) : Reads (K := K) (.items []) gap := by
  intro startLeft before outer rest
  rw [operand_append filler, operand_eq_step rfl (by decide), step, if_pos (by decide),
    List.append_nil]

theorem reads_item (filler : Filler isBlank gap) (ih : Reads (.value value) s)
    (apart : Apart isBlank later) (ih' : Reads (.items values) later) :
    Reads (.items (value :: values)) (gap ++ s ++ later) := by
  intro startLeft before outer rest
  have ends := apart.ends (Ends.cons (b := 0x5D) rfl rest)
  rw [List.append_assoc, List.append_assoc, operand_append filler,
    ih (.array startLeft before :: outer) _ trivial ends]
  refine (ih' startLeft (before ++ [value]) outer rest).trans ?_
  rw [List.append_assoc, List.singleton_append]

theorem reads_noEntries (filler : Filler isBlank gap) : Reads (K := K) (.entries []) gap := by
  intro startLeft before outer rest
  rw [operand_append filler]
  exact operand_closingMark

/-- The value of a key is read like any other. -/
theorem reads_entry {key : String} {k between : Bytes} (filler : Filler isBlank gap)
    (name : NameSpelled (encodeUtf8 key) k) (filler' : Filler isBlank between)
    (nonempty : between ≠ []) (ih : Reads (.value value) s) (apart : Apart isBlank later)
    (ih' : Reads (.entries entries) later) :
    Reads (.entries ((key, value) :: entries)) (gap ++ 0x2F :: k ++ between ++ s ++ later) := by
  intro startLeft before outer rest
  let closing : Bytes := 0x3E :: 0x3E :: rest
  have shape : gap ++ 0x2F :: k ++ between ++ s ++ later ++ closing =
      gap ++ 0x2F :: (k ++ (between ++ (s ++ (later ++ closing)))) := by simp
  have keyEnds := ends_of_filler filler' nonempty (s ++ (later ++ closing))
  have ends := apart.ends (Ends.cons (b := 0x3E) rfl (0x3E :: rest))
  rw [shape, operand_append filler, operand_key name.isRegular keyEnds, nameText_of_spelled name,
    operand_append filler', ih (.entry startLeft before key :: outer) _ trivial ends]
  exact ih' startLeft (before.insert key value) outer rest

end Containers

theorem reads_of_spelled {w : Written K} (spelled : Spelled w s) : Reads w s := by
  induction spelled with
  | null => exact fun _ _ awaits ends => operand_word isWord_null awaits ends
  | boolean b =>
      intro stack rest awaits ends
      rw [operand_word (isWord_boolean b) awaits ends]
      cases b <;> rfl
  | integer least greatest integer =>
      exact fun _ _ awaits ends => operand_integer integer least greatest awaits ends
  | name name =>
      intro stack rest awaits ends
      rw [List.cons_append, operand_cons awaits rfl (by decide) (by decide), item_name name ends]
  | literal bytes =>
      intro stack rest awaits _
      rw [List.append_assoc, List.cons_append, operand_cons awaits rfl (by decide) (by decide),
        List.singleton_append, item_literal]
  | hexadecimal hex =>
      intro stack rest awaits _
      rw [List.append_assoc, List.cons_append, operand_cons awaits rfl (by decide) (by decide),
        List.singleton_append, item_hexadecimal hex]
  | array _ ih => exact reads_array ih
  | dictionary _ sorted perm ih => exact reads_dictionary ih sorted perm
  | noItems filler => exact reads_noItems filler
  | item filler _ apart _ ih ih' => exact reads_item filler ih apart ih'
  | noEntries filler => exact reads_noEntries filler
  | entry filler name filler' nonempty _ apart _ ih ih' =>
      exact reads_entry filler name filler' nonempty ih apart ih'

/-! ### Tokens -/

theorem next_of_nothing (nothing : skipBlank s = []) : next (K := K) s = .ok none := by
  rw [next.eq_def]
  split
  next => rfl
  next found => cases nothing.symm.trans found

/-- The next token is the one after white space and comments. -/
theorem next_congr {t : Bytes} (same : skipBlank s = skipBlank t) :
    next (K := K) s = next t := by
  -- With one side named, each side is taken apart by itself.
  obtain ⟨token, read⟩ : ∃ token, next (K := K) s = token := ⟨_, rfl⟩
  rw [read, next.eq_def]
  rw [next.eq_def] at read
  split
  next nothing =>
    split at read
    next => exact read.symm
    next found => cases found.symm.trans (same.trans nothing)
  next b rest found =>
    split at read
    next nothing => cases nothing.symm.trans (same.trans found)
    next found' =>
      cases found'.symm.trans (same.trans found)
      exact read.symm

theorem visible_of_isStray (stray : isStray b) : isBlank b = false ∧ b ≠ 0x25 := by
  obtain rfl | rfl | rfl | rfl | rfl := eq_of_isStray stray <;> exact ⟨rfl, by decide⟩

theorem next_stray (stray : isStray b) (s : Bytes) : next (K := K) (b :: s) = next s := by
  have found := skipBlank_cons (visible_of_isStray stray).1 (visible_of_isStray stray).2 s
  rw [next.eq_def]
  split
  next nothing => cases nothing.symm.trans found
  next found' =>
    cases found'.symm.trans found
    rw [if_pos stray]

/-- White space, comments and closing brackets before a token do not matter. -/
theorem next_append {gap : Bytes} (filler : Filler isSkipped gap) (s : Bytes) :
    next (K := K) (gap ++ s) = next s := by
  induction filler with
  | nil => rfl
  | byte skipped _ ih =>
      rw [List.cons_append]
      rcases Bool.or_eq_true_iff.mp skipped with blank | stray
      · rw [next_congr (skipBlank_of_isBlank blank _), ih]
      · rw [next_stray stray, ih]
  | @comment text s' eol inside ends _ ih =>
      have shape : 0x25 :: text ++ eol :: s' ++ s = 0x25 :: text ++ eol :: (s' ++ s) := by simp
      rw [shape, next_congr (skipBlank_comment inside ends _), ih]

theorem next_of_operand {value : Operand K} {after : Bytes} (blank : isBlank b = false)
    (comment : b ≠ 0x25) (stray : isStray b = false) (noWord : isRegular b → startsNumber b)
    (read : operand [] (b :: s) = .ok (some value, after)) :
    next (b :: s) = .ok (some (.operand value, after)) := by
  have found := skipBlank_cons blank comment s
  rw [next.eq_def]
  split
  next nothing => cases nothing.symm.trans found
  next found' =>
    cases found'.symm.trans found
    rw [if_neg (by simp [stray]), if_neg (by simpa using noWord)]
    split
    next failed => cases failed.symm.trans read
    next read' => cases read'.symm.trans read; rfl
    next read' => cases read'.symm.trans read

/-- The token that a word is outside of all brackets. -/
def wordToken (text : String) : Token K :=
  match text with
  | "true" => .operand (.boolean true)
  | "false" => .operand (.boolean false)
  | "null" => .operand .null
  | keyword => .operator (.plain keyword)

theorem next_word {text : String} (isWord : IsWord text) (noImage : text ≠ "BI")
    (ends : Ends rest) :
    next (encodeUtf8 text ++ rest) = .ok (some (wordToken (K := K) text, rest)) := by
  obtain ⟨b, s, shape, start, first, later, graphic⟩ := isWord.exists_cons
  have found := skipBlank_cons (isBlank_of_isRegular first) (ne_of_isRegular first (c := 0x25) rfl)
    (s ++ rest)
  have ascii : ∀ c ∈ b :: s, c < 0x80 := by
    intro c among
    have visible := graphic c among
    simp only [isGraphic, Bool.and_eq_true, decide_eq_true_eq] at visible
    exact UInt8.lt_of_le_of_lt visible.2 (by decide)
  have same : asciiText (b :: s) = text := by
    rw [← Text.decodeUtf8_eq_asciiText ascii, ← shape, Text.decodeUtf8_encodeUtf8]
  rw [shape, List.cons_append, next.eq_def]
  split
  next nothing => cases nothing.symm.trans found
  next found' =>
    cases found'.symm.trans found
    rw [if_neg (by simp [isStray_of_isRegular first]), if_pos (by simp [first, start])]
    simp only [word_append later ends, afterWord_append later ends, same]
    rw [if_neg (by simpa using graphic)]
    split
    next => rfl
    next => rfl
    next => rfl
    next => exact absurd rfl noImage
    next => rw [wordToken] <;> assumption

omit [Scalar K] in
theorem IsKeyword.wordToken {text : String} (keyword : IsKeyword text) :
    wordToken (K := K) text = .operator (.plain text) := by
  have free := keyword.free
  simp only [List.mem_cons, List.not_mem_nil, or_false, not_or] at free
  rw [Content.wordToken] <;> tauto

theorem Apart.ends_skipped {later : Bytes} (apart : Apart isSkipped later) : Ends later := by
  intro b first
  rcases apart b first with skipped | rfl
  · by_contra regular
    have regular : isRegular b := by simpa using regular
    simp [isSkipped, isBlank_of_isRegular regular, isStray_of_isRegular regular] at skipped
  · rfl

/-- A token before what follows it. -/
theorem next_of_spelled {token : Token K} (spelled : TokenSpelled token s) (ends : Ends rest) :
    next (s ++ rest) = .ok (some (token, rest)) := by
  cases spelled with
  | operator keyword =>
      rw [next_word keyword.toIsWord (fun image => keyword.free (by simp [image])) ends,
        keyword.wordToken]
  | operand value =>
      have read := reads_of_spelled value [] rest trivial ends
      cases value with
      | null => exact next_word isWord_null (by decide) ends
      | boolean b =>
          rw [next_word (isWord_boolean b) (by cases b <;> decide) ends]
          cases b <;> rfl
      | integer _ _ integer =>
          obtain ⟨b, t, rfl, start⟩ := integer.exists_cons
          have regular := isRegular_of_startsNumber start
          exact next_of_operand (isBlank_of_isRegular regular) (ne_of_isRegular regular rfl)
            (isStray_of_isRegular regular) (fun _ => start) read
      | name | literal | hexadecimal | array | dictionary =>
          exact next_of_operand rfl (by decide) rfl (by decide) read

namespace TokenStream

theorem ofBytes_of_nothing (read : next (K := K) s = .ok none) :
    ofBytes (K := K) s = ⟨[], none⟩ := by
  rw [ofBytes.eq_def]
  split
  next failed => cases failed.symm.trans read
  next => rfl
  next read' => cases read'.symm.trans read

theorem ofBytes_of_token {token : Token K} {after : Bytes}
    (read : next s = .ok (some (token, after))) :
    ofBytes s =
      ⟨(token, after.length) :: (ofBytes after).tokens, (ofBytes (K := K) after).fault⟩ := by
  rw [ofBytes.eq_def]
  split
  next failed => cases failed.symm.trans read
  next read' => cases read'.symm.trans read
  next read' => cases read'.symm.trans read; rfl

/-- The tokens of content are the ones that it spells, and there is no fault. -/
theorem ofBytes_of_spelled {tokens : List (Token K)} (spelled : ContentSpelled tokens s) :
    (ofBytes s).values = tokens ∧ (ofBytes (K := K) s).fault = none := by
  induction spelled with
  | @nil gap filler =>
      have read := next_append (K := K) filler []
      rw [List.append_nil, next_of_nothing skipBlank.eq_1] at read
      rw [ofBytes_of_nothing read]
      exact ⟨rfl, rfl⟩
  | @cons token tokens gap s later filler spelled apart _ ih =>
      have read : next (gap ++ s ++ later) = .ok (some (token, later)) := by
        rw [List.append_assoc, next_append filler, next_of_spelled spelled apart.ends_skipped]
      rw [ofBytes_of_token read]
      exact ⟨congrArg (token :: ·) ih.1, ih.2⟩

/-- The content `<</B -07 /A#20 (\))>> ]DP`. -/
theorem ofBytes_of_spelled_propertyList :
    let tokens : List (Token Int) :=
      [.operand (.dictionary [("A ", .literal [0x29]), ("B", .integer (-7))]),
        .operator (.plain "DP")]
    let s : Bytes :=
      [0x3C, 0x3C, 0x2F, 0x42, 0x20, 0x2D, 0x30, 0x37, 0x20, 0x2F, 0x41, 0x23, 0x32, 0x30, 0x20,
        0x28, 0x5C, 0x29, 0x29, 0x3E, 0x3E, 0x20, 0x5D, 0x44, 0x50]
    ContentSpelled tokens s ∧
      (ofBytes s).values = tokens ∧ (ofBytes (K := Int) s).fault = none := by
  intro tokens s
  have bytes_B : encodeUtf8 "B" = [0x42] := by decide +kernel
  have bytes_A : encodeUtf8 "A " = [0x41, 0x20] := by decide +kernel
  have key_B : NameSpelled (encodeUtf8 "B") [0x42] := bytes_B ▸ .plain rfl (by decide) .nil
  have key_A : NameSpelled (encodeUtf8 "A ") [0x41, 0x23, 0x32, 0x30] :=
    bytes_A ▸ .plain rfl (by decide) (.code false false .nil)
  have blank : Filler isBlank [0x20] := .byte rfl .nil
  have seven : Spelled (K := Int) (.value (.integer (-7))) [0x2D, 0x30, 0x37] :=
    .integer (by decide) (by decide) (.negative (.digits 1 (by decide)))
  have closed : Spelled (K := Int) (.value (.literal [0x29])) [0x28, 0x5C, 0x29, 0x29] := .literal _
  have second : Spelled (.entries [("A ", .literal [0x29])]) _ :=
    .entry blank key_A blank (by decide) closed (by simp [Apart]) (.noEntries .nil)
  have both : Spelled (.entries [("B", .integer (-7)), ("A ", .literal [0x29])]) _ :=
    .entry .nil key_B blank (by decide) seven (by simp [Apart, isBlank]) second
  have sorted : Dictionary.Sorted (K := Int) [("A ", .literal [0x29]), ("B", .integer (-7))] := by
    simp only [Dictionary.Sorted, List.pairwise_cons, List.mem_singleton, forall_eq]
    decide +kernel
  have properties : TokenSpelled (.operand (.dictionary _)) _ :=
    .operand (.dictionary both sorted (.swap ..))
  have isWord : IsWord "DP" := by constructor <;> decide +kernel
  have keyword : IsKeyword "DP" := ⟨isWord, by decide⟩
  have bytes_DP : encodeUtf8 "DP" = [0x44, 0x50] := by decide +kernel
  have operator : TokenSpelled (K := Int) (.operator (.plain "DP")) [0x44, 0x50] :=
    bytes_DP ▸ .operator keyword
  have last : ContentSpelled (K := Int) [.operator (.plain "DP")] [0x20, 0x5D, 0x44, 0x50] :=
    .cons (.byte rfl (.byte rfl .nil)) operator (by simp [Apart]) (.nil .nil)
  have spelled : ContentSpelled tokens s :=
    .cons .nil properties (by simp [Apart, isSkipped, isBlank]) last
  exact ⟨spelled, ofBytes_of_spelled spelled⟩

end TokenStream

end Content

end PdfContent
