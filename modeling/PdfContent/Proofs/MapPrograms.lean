import Mathlib.Data.Nat.Digits.Lemmas
import PdfContent.Proofs.Abbreviations
import PdfContent.Proofs.CodeSplitting

/-!
# Programs of character maps

A program is carried out operator by operator. What its sections say is added to the map in the order
of the program, entry by entry, so that a map holds just the entries of all sections of a kind, less
those that lack a part. An entry that is passed over changes nothing for the others. What is taken
over from predefined maps is kept apart from the entries.

Of several entries that say something of a code, the last one counts. `LastGiving` says so of any kind
of entry, without the search that finds it.
-/

namespace PdfContent

/-! ### The last of several -/

section Last

variable {α β : Type} {f : α → Option β} {Gives : α → β → Prop} {l : List α} {b : β}

/-- The last element that gives something gives `b`. -/
def LastGiving (Gives : α → β → Prop) (l : List α) (b : β) : Prop :=
  ∃ before a after, l = before ++ a :: after ∧ Gives a b ∧ ∀ x ∈ after, ∀ c, ¬Gives x c

theorem eq_none_iff_of_gives (agrees : ∀ a b, f a = some b ↔ Gives a b) (a : α) :
    f a = none ↔ ∀ b, ¬Gives a b := by
  simp only [← agrees, Option.eq_none_iff_forall_not_mem, Option.mem_def]

/-- A search from the end finds what the last element gives. -/
theorem findSome?_reverse_iff_lastGiving (agrees : ∀ a b, f a = some b ↔ Gives a b) :
    l.reverse.findSome? f = some b ↔ LastGiving Gives l b := by
  rw [List.findSome?_eq_some_iff]
  constructor
  · rintro ⟨after, a, before, shape, found, nothing⟩
    refine ⟨before.reverse, a, after.reverse, ?_, (agrees a b).mp found, ?_⟩
    · rw [← l.reverse_reverse, shape]
      simp
    · intro x among
      exact (eq_none_iff_of_gives agrees x).mp (nothing x (List.mem_reverse.mp among))
  · rintro ⟨before, a, after, rfl, gives, nothing⟩
    refine ⟨after.reverse, a, before.reverse, by simp, (agrees a b).mpr gives, ?_⟩
    intro x among
    exact (eq_none_iff_of_gives agrees x).mpr (nothing x (List.mem_reverse.mp among))

theorem findSome?_reverse_eq_none_iff (agrees : ∀ a b, f a = some b ↔ Gives a b) :
    l.reverse.findSome? f = none ↔ ∀ a ∈ l, ∀ b, ¬Gives a b := by
  simp only [List.findSome?_eq_none_iff, List.mem_reverse, eq_none_iff_of_gives agrees]

theorem findSome?_filterMap {γ : Type} (g : α → Option γ) (h : γ → Option β) (l : List α) :
    (l.filterMap g).findSome? h = l.findSome? fun a => (g a).bind h := by
  induction l with
  | nil => rfl
  | cons a l ih => cases found : g a <;> simp [List.findSome?_cons, found, ih]

theorem find?_map_eq_findSome? (p : α → Bool) (g : α → β) (l : List α) :
    (l.find? p).map g = l.findSome? fun a => if p a then some (g a) else none := by
  induction l with
  | nil => rfl
  | cons a l ih => cases holds : p a <;> simp [holds, ih]

end Last

/-! ### Bytes as numbers -/

/-- The number that bytes stand for, the most significant one first. -/
def bigEndianValue (s : Bytes) : Nat := Nat.ofDigits 256 (s.reverse.map UInt8.toNat)

theorem bigEndianValue_concat (s : Bytes) (b : UInt8) :
    bigEndianValue (s ++ [b]) = 256 * bigEndianValue s + b.toNat := by
  rw [bigEndianValue, List.reverse_append, List.reverse_singleton, List.singleton_append,
    List.map_cons, Nat.ofDigits_cons, Nat.add_comm, bigEndianValue]

theorem toNat_shiftLeft_or (n : UInt32) (b : UInt8) :
    (n <<< 8 ||| b.toUInt32).toNat = (256 * n.toNat + b.toNat) % 2 ^ 32 := by
  have small : b.toUInt32.toNat < 2 ^ 8 := b.toNat_lt
  have shifted : (n <<< 8).toNat = (n.toNat % 2 ^ 24) <<< 8 := by
    rw [UInt32.toNat_shiftLeft, Nat.shiftLeft_eq, Nat.shiftLeft_eq]
    change n.toNat * 2 ^ 8 % 2 ^ 32 = n.toNat % 2 ^ 24 * 2 ^ 8
    omega
  rw [UInt32.toNat_or, shifted, ← Nat.shiftLeft_add_eq_or_of_lt small, Nat.shiftLeft_eq,
    UInt8.toNat_toUInt32]
  have := b.toNat_lt
  omega

/-- A code is the number of its last four bytes. -/
theorem CMap.toNat_codeOf (s : Bytes) : (CMap.codeOf s).toNat = bigEndianValue s % 2 ^ 32 := by
  induction s using List.reverseRecOn with
  | nil => rfl
  | append_singleton s b ih =>
      rw [codeOf_concat, toNat_shiftLeft_or, ih, bigEndianValue_concat]
      omega

/-! ### Codes -/

section Codes

variable {K : Type} {v low high : Operand K} {code : UInt32} {k k' : Nat}

/-- The operand is a string, and the code is the number of its last four bytes. -/
def Operand.HasCode (v : Operand K) (code : UInt32) : Prop :=
  ∃ s, v.bytes? = some s ∧ code.toNat = bigEndianValue s % 2 ^ 32

/-- The code is `k` after the first one of a range, and not after the last one. -/
def InRange (low high : Operand K) (code : UInt32) (k : Nat) : Prop :=
  ∃ first last, low.HasCode first ∧ high.HasCode last ∧ code.toNat = first.toNat + k ∧ code ≤ last

theorem Operand.hasCode_iff :
    v.HasCode code ↔ v.bytes?.map CMap.codeOf = some code := by
  simp only [HasCode, Option.map_eq_some_iff, ← CMap.toNat_codeOf, UInt32.toNat_inj]
  exact exists_congr fun s => and_congr_right fun _ => eq_comm

theorem inRange_iff :
    InRange low high code k ↔ ∃ l h, low.bytes? = some l ∧ high.bytes? = some h ∧
      (CMap.codeOf l ≤ code ∧ code ≤ CMap.codeOf h) ∧ k = (code - CMap.codeOf l).toNat := by
  simp only [InRange, Operand.hasCode_iff, Option.map_eq_some_iff, UInt32.le_iff_toNat_le]
  constructor
  · rintro ⟨_, _, ⟨l, isLow, rfl⟩, ⟨h, isHigh, rfl⟩, after, before⟩
    have least : CMap.codeOf l ≤ code := UInt32.le_iff_toNat_le.mpr (by omega)
    refine ⟨l, h, isLow, isHigh, ⟨by omega, before⟩, ?_⟩
    rw [UInt32.toNat_sub_of_le _ _ least]
    omega
  · rintro ⟨l, h, isLow, isHigh, ⟨least, most⟩, rfl⟩
    refine ⟨_, _, ⟨l, isLow, rfl⟩, ⟨h, isHigh, rfl⟩, ?_, most⟩
    rw [UInt32.toNat_sub_of_le _ _ (UInt32.le_iff_toNat_le.mpr least)]
    omega

theorem InRange.offset_eq (within : InRange low high code k)
    (within' : InRange low high code k') : k = k' := by
  obtain ⟨l, _, isLow, _, _, rfl⟩ := inRange_iff.mp within
  obtain ⟨l', _, isLow', _, _, rfl⟩ := inRange_iff.mp within'
  rw [Option.some.inj (isLow.symm.trans isLow')]

end Codes

/-! ### Entries of sections -/

/-- An entry of a section: for one code, or for a range of codes. The parts may be any operands. -/
inductive MapEntry (K : Type)
  | char (source target : Operand K)
  | range (low high target : Operand K)

namespace CMap

variable {K : Type}

/-- The entries of all sections that end with one of two operators, in the order of the program. -/
def entriesOf (char range : String) (calls : List (Call K)) : List (MapEntry K) :=
  calls.flatMap fun c =>
    if c.operator.keyword = char then (pairs c.operands).map fun p => .char p.1 p.2
    else if c.operator.keyword = range then
      (triples c.operands).map fun t => .range t.1 t.2.1 t.2.2
    else []

/-- The entries that map codes to text. -/
def textEntries (calls : List (Call K)) : List (MapEntry K) :=
  entriesOf "endbfchar" "endbfrange" calls

/-- The entries that map codes to glyph numbers. -/
def cidEntries (calls : List (Call K)) : List (MapEntry K) :=
  entriesOf "endcidchar" "endcidrange" calls

end CMap

variable {K : Type} [Scalar K] [Text.Decoder]

/-- The range of codes with text that an entry stands for. -/
def MapEntry.textRange? : MapEntry K → Option TextRange
  | .char source target => CMap.textEntry? (source, target)
  | .range low high target => CMap.textRangeEntry? (low, high, target)

/-- The range of codes with glyph numbers that an entry stands for. -/
def MapEntry.cidRange? : MapEntry K → Option CidRange
  | .char source target => CMap.cidEntry? (source, target)
  | .range low high target => CMap.cidRangeEntry? (low, high, target)

/-- The predefined map that an operator takes over. -/
def Call.parent? (c : Call K) : Option CMap :=
  if c.operator.keyword = "usecmap" then
    (c.operands.getLast?.bind Operand.name?).bind CMap.predefined?
  else none

/-- The operator takes over one of the maps under which codes are glyph numbers. -/
def Call.UsesIdentity (c : Call K) : Prop :=
  c.operator.keyword = "usecmap" ∧
    ∃ name ∈ ["Identity-H", "Identity-V"], c.operands.getLast? = some (.name name)

namespace CMap

/-- The predefined maps that a program takes over. -/
def parents (calls : List (Call K)) : List CMap := calls.filterMap Call.parent?

/-! ### What operators leave behind -/

variable {m m₁ m₂ : CMap} {calls calls₁ calls₂ : List (Call K)} {data : Bytes}

omit [Scalar K] [Text.Decoder] in
theorem entriesOf_append (char range : String) :
    entriesOf char range (calls₁ ++ calls₂) =
      entriesOf char range calls₁ ++ entriesOf char range calls₂ :=
  List.flatMap_append

/-- What operators change in a map, its name and its writing direction aside. -/
structure Collects (m : CMap) (calls : List (Call K)) (m' : CMap) : Prop where
  texts : m'.texts = m.texts ++ (textEntries calls).filterMap MapEntry.textRange?
  cids : m'.cids = m.cids ++ (cidEntries calls).filterMap MapEntry.cidRange?
  identity : m'.identity = (m.identity || (parents calls).any CMap.identity)
  charset : m'.charset = m.charset.or ((parents calls).findSome? CMap.charset)
  spaced : (m.identity → m.codespaces ≠ []) → m'.identity → m'.codespaces ≠ []

theorem Collects.refl (m : CMap) : Collects (K := K) m [] m where
  texts := (List.append_nil _).symm
  cids := (List.append_nil _).symm
  identity := (Bool.or_false _).symm
  charset := Option.or_none.symm
  spaced := id

theorem Collects.trans (first : Collects m calls₁ m₁) (second : Collects m₁ calls₂ m₂) :
    Collects m (calls₁ ++ calls₂) m₂ where
  texts := by
    rw [second.texts, first.texts, textEntries, textEntries, textEntries, entriesOf_append,
      List.filterMap_append, List.append_assoc]
  cids := by
    rw [second.cids, first.cids, cidEntries, cidEntries, cidEntries, entriesOf_append,
      List.filterMap_append, List.append_assoc]
  identity := by
    rw [second.identity, first.identity, parents, parents, parents, List.filterMap_append,
      List.any_append, Bool.or_assoc]
  charset := by
    rw [second.charset, first.charset, parents, parents, parents, List.filterMap_append,
      List.findSome?_append, Option.or_assoc]
  spaced := fun covered => second.spaced (first.spaced covered)

omit [Text.Decoder] in
theorem identity_of_predefined? {name : String} {parent : CMap}
    (found : predefined? name = some parent) :
    (parent.identity ↔ name ∈ ["Identity-H", "Identity-V"]) ∧
      (parent.identity → parent.codespaces ≠ []) := by
  unfold predefined? at found
  split at found
  next horizontal =>
    cases found
    simp_all [ofIdentity]
  next =>
    split at found
    next vertical =>
      cases found
      simp_all [ofIdentity]
    next =>
      obtain ⟨charset, -, rfl⟩ := Option.map_eq_some_iff.mp found
      simp_all [empty]

omit [Text.Decoder] in
theorem exists_define (m : CMap) (operands : List (Operand K)) :
    ∃ name vertical, m.define operands = { m with name, vertical } := by
  unfold define
  split
  next => split <;> exact ⟨_, _, rfl⟩
  next => exact ⟨_, _, rfl⟩

theorem Collects.of_usePredefined (m : CMap) {c : Call K} (keyword : c.operator.keyword = "usecmap")
    {name : String} (last : c.operands.getLast? = some (.name name)) :
    Collects m [c] (m.usePredefined name) := by
  have parent : c.parent? = predefined? name := by simp [Call.parent?, keyword, last, Operand.name?]
  have noTexts : textEntries [c] = [] := by simp [textEntries, entriesOf, keyword]
  have noCids : cidEntries [c] = [] := by simp [cidEntries, entriesOf, keyword]
  unfold usePredefined
  cases found : predefined? name with
  | none => constructor <;> simp +contextual [noTexts, noCids, parents, parent, found]
  | some taken =>
      have covered := (identity_of_predefined? found).2
      constructor
      case spaced =>
        intro before after
        dsimp only at after ⊢
        split
        next nothing =>
          have plain : m.identity = false := by
            simpa using fun identity => before identity (List.isEmpty_iff.mp nothing)
          exact covered (by simpa [plain] using after)
        next something => simpa using something
      all_goals simp [noTexts, noCids, parents, parent, found]

/-- One operator. -/
theorem collects_execute (m : CMap) (c : Call K) :
    Collects m [c] (m.execute c.operator.keyword c.operands) := by
  obtain ⟨⟨keyword, image⟩, operands⟩ := c
  change Collects m _ (m.execute keyword operands)
  unfold execute
  split
  case h_6 =>
    obtain ⟨name, vertical, changed⟩ := exists_define m operands
    rw [changed]
    constructor <;> simp [textEntries, cidEntries, entriesOf, parents, Call.parent?]
  case h_7 =>
    split
    next name last => exact .of_usePredefined m rfl last
    next other =>
      have parent : Call.parent? ⟨⟨"usecmap", image⟩, operands⟩ = none := by
        cases last : operands.getLast? with
        | none => simp [Call.parent?, last]
        | some v => cases v <;> simp_all [Call.parent?, Operand.name?]
      constructor <;> simp [textEntries, cidEntries, entriesOf, parents, parent]
  case h_2 | h_3 | h_4 | h_5 =>
    constructor <;>
      simp [textEntries, cidEntries, entriesOf, parents, Call.parent?, List.filterMap_map]
    rfl
  case h_1 | h_8 =>
    constructor <;>
      simp_all +contextual [textEntries, cidEntries, entriesOf, parents, Call.parent?]

/-- The operators among tokens. -/
theorem collects_run (m : CMap) (operands : List (Operand K)) (tokens : List (Token K)) :
    Collects m (Content.calls operands tokens) (run m operands tokens) := by
  induction tokens generalizing m operands with
  | nil => exact .refl m
  | cons token rest ih =>
      cases token with
      | operand v => exact ih m (operands ++ [v])
      | operator op => exact (collects_execute m ⟨op, operands⟩).trans (ih _ [])

/-- A program that is accepted. -/
theorem collects_parse (parsed : parse K data = .ok m) :
    Collects (K := K) empty (Content.callsOf data) m := by
  unfold parse at parsed
  dsimp only at parsed
  split at parsed
  · cases parsed
  · cases parsed
    exact collects_run ..

/-- A program that is accepted, from what is read off its map. -/
theorem exists_of_parse {α : Type} {f : CMap → α} {a : α}
    (read : (parse K data).toOption.map f = some a) : ∃ m, parse K data = .ok m ∧ f m = a := by
  cases parsed : parse K data with
  | error e => simp [parsed, Except.toOption] at read
  | ok m => exact ⟨m, rfl, by simpa [parsed, Except.toOption] using read⟩

/-! ### What is taken over -/

omit [Scalar K] [Text.Decoder] in
/-- Codes are glyph numbers just if one of the two predefined maps that say so is taken over. -/
theorem any_parents_identity :
    (parents calls).any CMap.identity ↔ ∃ c ∈ calls, c.UsesIdentity := by
  simp only [parents, List.any_filterMap, List.any_eq_true]
  refine exists_congr fun c => and_congr_right fun _ => ?_
  constructor
  · intro taken
    obtain ⟨parent, found, identity⟩ := (Option.any_eq_true _ _).mp taken
    unfold Call.parent? at found
    split at found
    next keyword =>
      obtain ⟨name, named, found⟩ := Option.bind_eq_some_iff.mp found
      obtain ⟨v, last, isName⟩ := Option.bind_eq_some_iff.mp named
      cases v <;> cases isName
      exact ⟨keyword, name, (identity_of_predefined? found).1.mp identity, last⟩
    next => cases found
  · rintro ⟨keyword, name, listed, last⟩
    simp only [List.mem_cons, List.not_mem_nil, or_false] at listed
    rcases listed with rfl | rfl <;>
      simp [Call.parent?, keyword, last, Operand.name?, predefined?, ofIdentity]

end CMap

end PdfContent
