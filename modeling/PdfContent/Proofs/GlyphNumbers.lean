import PdfContent.Proofs.MapPrograms
import PdfContent.Proofs.Reading
import PdfContent.Text.Tables

/-!
# Glyph numbers of codes

Entries give glyph numbers that count on from a first one. Two things decide what becomes of them. A
map that is derived from one of the maps under which codes are glyph numbers keeps to that rule, so
that its own entries have no effect. In all other maps the last entry that covers a code counts, and if
its number has more than 32 bits, there is none: asking for it overflows. The first number, the code and
the start of the range are independent of each other, and each combination is that of some program.
-/

namespace PdfContent

variable {K : Type} [Scalar K] {code : UInt32} {n : Nat}

/-! ### Numbers that entries give -/

/-- The operand is an integer, and the number is the same or, for an integer that has more than 32 bits
or is below zero, zero. -/
def Operand.HasCid (v : Operand K) (n : Nat) : Prop :=
  ∃ i, v.integer? = some i ∧ n = if 0 ≤ i ∧ i < 2 ^ 32 then i.toNat else 0

theorem Operand.hasCid_iff {v : Operand K} :
    v.HasCid n ↔ v.integer?.map (fun i => (CMap.cidOf i).toNat) = some n := by
  have value (i : Int) : (CMap.cidOf i).toNat = if 0 ≤ i ∧ i < 2 ^ 32 then i.toNat else 0 := by
    unfold CMap.cidOf
    split
    next within =>
      simp only [Bool.and_eq_true, decide_eq_true_eq] at within
      rw [UInt32.toNat_ofNat', if_pos (by omega), Nat.mod_eq_of_lt (by omega)]
    next beyond =>
      simp only [Bool.and_eq_true, decide_eq_true_eq] at beyond
      rw [if_neg (by omega)]
      rfl
  simp only [HasCid, Option.map_eq_some_iff, value]
  exact exists_congr fun i => and_congr_right fun _ => eq_comm

namespace MapEntry

/-- The glyph numbers that an entry gives to codes. They are not bounded. -/
inductive GivesCid : MapEntry K → UInt32 → Nat → Prop
  | char {source target : Operand K} {code : UInt32} {n : Nat} :
      source.HasCode code → target.HasCid n → GivesCid (.char source target) code n
  | range {low high target : Operand K} {code : UInt32} {k n : Nat} :
      InRange low high code k → target.HasCid n → GivesCid (.range low high target) code (n + k)

/-- The glyph number that an entry gives to a code. -/
def cidAt? (code : UInt32) (e : MapEntry K) : Option Nat :=
  e.cidRange?.bind fun r =>
    if r.covers code then some (r.cid.toNat + (code - r.low).toNat) else none

theorem cidAt?_range {low high target : Operand K} :
    (range low high target).cidAt? code = some n ↔ (range low high target).GivesCid code n := by
  have shape : (range low high target).cidAt? code = some n ↔
      ∃ l h i, low.bytes? = some l ∧ high.bytes? = some h ∧ target.integer? = some i ∧
        (CMap.codeOf l ≤ code ∧ code ≤ CMap.codeOf h) ∧
          (CMap.cidOf i).toNat + (code - CMap.codeOf l).toNat = n := by
    simp [cidAt?, cidRange?, CMap.cidRangeEntry?, CidRange.covers, Option.bind_eq_some_iff, and_assoc]
  rw [shape]
  constructor
  · rintro ⟨l, h, i, isLow, isHigh, isCid, bounds, rfl⟩
    exact .range (inRange_iff.mpr ⟨l, h, isLow, isHigh, bounds, rfl⟩)
      (Operand.hasCid_iff.mpr (by rw [isCid]; rfl))
  · intro gives
    cases gives with
    | range within hasCid =>
        obtain ⟨l, h, isLow, isHigh, bounds, rfl⟩ := inRange_iff.mp within
        obtain ⟨i, isCid, rfl⟩ := Option.map_eq_some_iff.mp (Operand.hasCid_iff.mp hasCid)
        exact ⟨l, h, i, isLow, isHigh, isCid, bounds, rfl⟩

/-- An entry for one code is one for a range that starts and ends there. -/
theorem givesCid_char_iff {source target : Operand K} :
    (char source target).GivesCid code n ↔ (range source source target).GivesCid code n := by
  constructor
  · intro gives
    cases gives with
    | char hasCode hasCid =>
        exact .range (k := 0) ⟨code, code, hasCode, hasCode, rfl, UInt32.le_refl code⟩ hasCid
  · intro gives
    cases gives with
    | range within hasCid =>
        obtain ⟨l, h, isLow, isHigh, ⟨least, most⟩, rfl⟩ := inRange_iff.mp within
        obtain rfl := Option.some.inj (isLow.symm.trans isHigh)
        obtain rfl := UInt32.le_antisymm least most
        rw [UInt32.sub_self]
        exact .char (Operand.hasCode_iff.mpr (by rw [isLow]; rfl)) hasCid

theorem cidAt?_eq_some_iff (code : UInt32) (e : MapEntry K) (n : Nat) :
    e.cidAt? code = some n ↔ e.GivesCid code n := by
  cases e with
  | char source target =>
      have same : (char source target).cidAt? code = (range source source target).cidAt? code := by
        cases isCode : source.bytes? <;>
          simp [cidAt?, cidRange?, CMap.cidEntry?, CMap.cidRangeEntry?, isCode]
      rw [same, cidAt?_range, givesCid_char_iff]
  | range => exact cidAt?_range

end MapEntry

namespace CMap

variable {m : CMap} {entries : List (MapEntry K)} {data : Bytes}

/-! ### Numbers in a map -/

/-- The number, if it has no more than 32 bits. -/
def fitting (n : Nat) : Except Overflow Nat := if n < 2 ^ 32 then .ok n else .error .sum

theorem fitting_eq_ok_iff : fitting n = .ok n ↔ n < 2 ^ 32 := by
  unfold fitting
  split
  next fits => exact iff_of_true rfl fits
  next beyond => exact iff_of_false nofun beyond

theorem fitting_eq_error_iff : fitting n = .error .sum ↔ 2 ^ 32 ≤ n := by
  unfold fitting
  split
  next fits => exact iff_of_false nofun (Nat.not_le.mpr fits)
  next beyond => exact iff_of_true rfl (Nat.not_lt.mp beyond)

theorem map_toNat_exactSum (a b : UInt32) :
    (exactSum a b).map UInt32.toNat = fitting (a.toNat + b.toNat) := by
  cases sum : exactSum a b with
  | ok c =>
      have value := exactSum_eq_ok_iff.mp sum
      rw [Except.map, ← value]
      exact (fitting_eq_ok_iff.mpr c.toNat_lt).symm
  | error e => exact (fitting_eq_error_iff.mpr (exactSum_eq_error_iff.mp sum)).symm

/-- A glyph number and its value say the same. -/
theorem map_toNat_eq_ok_iff {result : Except Overflow UInt32} :
    result.map UInt32.toNat = .ok n ↔ ∃ cid, result = .ok cid ∧ cid.toNat = n := by
  cases result <;> simp [Except.map]

theorem map_toNat_eq_error_iff {result : Except Overflow UInt32} :
    result.map UInt32.toNat = .error .sum ↔ result = .error .sum := by
  cases result <;> simp [Except.map]

theorem toCid_of_identity (identity : m.identity) (code : UInt32) : m.toCid code = .ok code :=
  if_pos identity

theorem findSome?_cidAt?_iff (code : UInt32) (entries : List (MapEntry K)) (n : Nat) :
    entries.reverse.findSome? (MapEntry.cidAt? code) = some n ↔
      LastGiving (fun e => e.GivesCid code) entries n :=
  findSome?_reverse_iff_lastGiving (MapEntry.cidAt?_eq_some_iff code)

/-- The last number that entries give can be searched for. -/
instance (code : UInt32) (entries : List (MapEntry K)) (n : Nat) :
    Decidable (LastGiving (fun e => e.GivesCid code) entries n) :=
  decidable_of_iff _ (findSome?_cidAt?_iff code entries n)

/-- The number of the last entry that covers a code, if it fits, and zero if none does. -/
theorem toCid_of_entries (plain : m.identity = false)
    (collected : m.cids = entries.filterMap MapEntry.cidRange?) (code : UInt32) :
    (m.toCid code).map UInt32.toNat =
      ((entries.reverse.findSome? (MapEntry.cidAt? code)).map fitting).getD (.ok 0) := by
  have found : entries.reverse.findSome? (MapEntry.cidAt? code) =
      (m.cids.reverse.find? fun r => r.covers code).map fun r =>
        r.cid.toNat + (code - r.low).toNat := by
    rw [collected, ← List.filterMap_reverse, find?_map_eq_findSome?, findSome?_filterMap]
    rfl
  rw [found, toCid, plain]
  cases m.cids.reverse.find? fun r => r.covers code with
  | none => rfl
  | some r => exact map_toNat_exactSum r.cid (code - r.low)

/-- A program is accepted if it takes over a map under which codes are glyph numbers, or if one of its
entries gives a number to some code. -/
theorem exists_parse_of_cids [Text.Decoder]
    (derives : (∃ c ∈ Content.callsOf (K := K) data, c.UsesIdentity) ∨
      ∃ e ∈ cidEntries (Content.callsOf (K := K) data), ∃ code n, e.GivesCid code n) :
    ∃ m, parse K data = .ok m := by
  have collects : Collects (K := K) empty (Content.callsOf data) _ := collects_run ..
  unfold parse
  dsimp only
  rw [if_neg]
  · exact ⟨_, rfl⟩
  · simp only [Bool.and_eq_true, List.isEmpty_iff]
    rintro ⟨⟨noSpaces, -⟩, noCids⟩
    rcases derives with taken | ⟨e, among, code, n, gives⟩
    · have identity := any_parents_identity.mpr taken
      exact collects.spaced nofun (collects.identity.trans identity) noSpaces
    · rw [collects.cids] at noCids
      obtain ⟨r, isRange, -⟩ :=
        Option.bind_eq_some_iff.mp ((MapEntry.cidAt?_eq_some_iff code e n).mpr gives)
      have held := List.mem_filterMap.mpr ⟨e, among, isRange⟩
      exact absurd held (by rw [(List.append_eq_nil_iff.mp noCids).2]; exact List.not_mem_nil)

/-- The number of a code if entries take precedence over what the map is derived from: the one of the
last entry for the code; without one, the code itself in a map that is derived from one under which
codes are glyph numbers, and zero in others. -/
inductive Overriding (calls : List (Call K)) (code : UInt32) : Nat → Prop
  | entry {n : Nat} : LastGiving (fun e => e.GivesCid code) (cidEntries calls) n →
      Overriding calls code n
  | parent : (∀ e ∈ cidEntries calls, ∀ n, ¬e.GivesCid code n) → (∃ c ∈ calls, c.UsesIdentity) →
      Overriding calls code code.toNat
  | nothing : (∀ e ∈ cidEntries calls, ∀ n, ¬e.GivesCid code n) →
      (∀ c ∈ calls, ¬c.UsesIdentity) → Overriding calls code 0

theorem identity_iff_of_parse [Text.Decoder] (accepted : parse K data = .ok m) :
    m.identity ↔ ∃ c ∈ Content.callsOf (K := K) data, c.UsesIdentity := by
  rw [(collects_parse accepted).identity, ← any_parents_identity]
  simp [empty]

theorem identity_eq_false_of_parse [Text.Decoder] (accepted : parse K data = .ok m)
    (plain : ∀ c ∈ Content.callsOf (K := K) data, ¬c.UsesIdentity) : m.identity = false := by
  rw [Bool.eq_false_iff]
  intro identity
  obtain ⟨c, among, uses⟩ := (identity_iff_of_parse accepted).mp identity
  exact plain c among uses

/-- What becomes of the number that the last entry gives. -/
theorem toCid_of_last [Text.Decoder] (accepted : parse K data = .ok m)
    (plain : ∀ c ∈ Content.callsOf (K := K) data, ¬c.UsesIdentity)
    (last : LastGiving (fun e => e.GivesCid code) (cidEntries (Content.callsOf (K := K) data)) n) :
    (m.toCid code).map UInt32.toNat = fitting n := by
  have noIdentity := identity_eq_false_of_parse accepted plain
  have found := (findSome?_cidAt?_iff ..).mpr last
  rw [toCid_of_entries noIdentity (collects_parse accepted).cids, found, Option.map_some,
    Option.getD_some]

theorem toCid_of_none [Text.Decoder] (accepted : parse K data = .ok m)
    (plain : ∀ c ∈ Content.callsOf (K := K) data, ¬c.UsesIdentity)
    (none : ∀ e ∈ cidEntries (Content.callsOf (K := K) data), ∀ n, ¬e.GivesCid code n) :
    m.toCid code = .ok 0 := by
  have noIdentity := identity_eq_false_of_parse accepted plain
  have found := (findSome?_reverse_eq_none_iff (MapEntry.cidAt?_eq_some_iff code)).mpr none
  have zero := toCid_of_entries noIdentity (collects_parse accepted).cids code
  rw [found, Option.map_none, Option.getD_none, map_toNat_eq_ok_iff] at zero
  obtain ⟨cid, number, value⟩ := zero
  obtain rfl : cid = 0 := UInt32.toNat_inj.mp value
  exact number

/-- Entries take precedence just where the map is derived from none under which codes are glyph
numbers, or where they give the code itself. -/
theorem toCid_overriding_iff [Text.Decoder] (data : Bytes) :
    let calls := Content.callsOf (K := K) data
    ((∃ c ∈ calls, c.UsesIdentity) ∨ (∃ e ∈ cidEntries calls, ∃ code n, e.GivesCid code n) →
      ∃ m, parse K data = .ok m) ∧
    ∀ m, parse K data = .ok m → ∀ code n, Overriding calls code n → n < 2 ^ 32 →
      ∃ cid, m.toCid code = .ok cid ∧
        (cid.toNat = n ↔ ((∃ c ∈ calls, c.UsesIdentity) → n = code.toNat)) := by
  intro calls
  refine ⟨exists_parse_of_cids, fun m accepted code n overriding fits => ?_⟩
  by_cases taken : ∃ c ∈ calls, c.UsesIdentity
  · have identity := (identity_iff_of_parse accepted).mpr taken
    refine ⟨code, toCid_of_identity identity code, ?_⟩
    exact ⟨fun same _ => same.symm, fun same => (same taken).symm⟩
  · have plain : ∀ c ∈ calls, ¬c.UsesIdentity := by simpa using taken
    have number : (m.toCid code).map UInt32.toNat = .ok n := by
      cases overriding with
      | entry last => rw [toCid_of_last accepted plain last, fitting_eq_ok_iff.mpr fits]
      | parent _ derived => exact absurd derived taken
      | nothing none => rw [toCid_of_none accepted plain none]; rfl
    obtain ⟨cid, isCid, value⟩ := map_toNat_eq_ok_iff.mp number
    exact ⟨cid, isCid, iff_of_true value fun derived => absurd derived taken⟩

attribute [local instance] Text.byTables

/-- Ranges that overlap, and a code that has an entry of its own. -/
theorem toCid_overriding_iff_overlap :
    let data : Bytes := Text.encodeUtf8
      "<41> <44> 100 <42> <43> 200 endcidrange <43> 7 endcidchar"
    let calls := Content.callsOf (K := Int) data
    ∃ m, parse Int data = .ok m ∧
      (Overriding calls 0x42 200 ∧ m.toCid 0x42 = .ok 200) ∧
      (Overriding calls 0x43 7 ∧ m.toCid 0x43 = .ok 7) ∧
      (Overriding calls 0x44 103 ∧ m.toCid 0x44 = .ok 103) := by
  intro data calls
  have plain : ¬∃ c ∈ calls, c.UsesIdentity := by
    rw [← any_parents_identity]
    decide +kernel
  have second : Overriding calls 0x42 200 := .entry (by decide +kernel)
  have third : Overriding calls 0x43 7 := .entry (by decide +kernel)
  have fourth : Overriding calls 0x44 103 := .entry (by decide +kernel)
  have given : ∃ e ∈ cidEntries calls, ∃ code n, e.GivesCid code n := by
    cases second with
    | entry last =>
        obtain ⟨before, e, after, shape, gives, -⟩ := last
        exact ⟨e, by simp [shape], _, _, gives⟩
  have ⟨accepts, precedence⟩ := toCid_overriding_iff (K := Int) data
  obtain ⟨m, accepted⟩ := accepts (.inr given)
  have number {code cid : UInt32} (overriding : Overriding calls code cid.toNat) :
      m.toCid code = .ok cid := by
    obtain ⟨cid', isCid, value⟩ := precedence m accepted code _ overriding cid.toNat_lt
    rw [isCid, UInt32.toNat_inj.mp (value.mpr fun derived => absurd derived plain)]
  exact ⟨m, accepted, ⟨second, number second⟩, ⟨third, number third⟩, fourth, number fourth⟩

/-- The entries of a map that is derived from `Identity-H` have no effect. -/
theorem toCid_derived_ignores_entry :
    let data : Bytes := Text.encodeUtf8
      "/Identity-H usecmap 1 begincidrange <0041> <0042> 34 endcidrange"
    ∃ m, parse Int data = .ok m ∧
      Overriding (Content.callsOf (K := Int) data) 0x41 34 ∧ m.toCid 0x41 = .ok 0x41 := by
  intro data
  have read : (parse Int data).toOption.map (fun m => m.toCid 0x41) = some (.ok 0x41) := by
    decide +kernel
  obtain ⟨m, accepted, number⟩ := exists_of_parse read
  exact ⟨m, accepted, .entry (by decide +kernel), number⟩

/-! ### Programs for all ranges -/

section Programs

open Content

theorem exists_hexSpelled (s : Bytes) : ∃ text, HexSpelled s text := by
  induction s with
  | nil => exact ⟨[], .nil⟩
  | cons b s ih =>
      obtain ⟨text, spelled⟩ := ih
      exact ⟨hexDigit true (b / 16) :: [] ++ hexDigit true (b % 16) :: text,
        .byte true true (by simp) spelled⟩

/-- Each range can be written down. -/
theorem exists_rangeProgram (low high cid : UInt32) :
    ∃ data, callsOf (K := K) data = [⟨.plain "endcidrange", [.hexadecimal (bigEndian 4 low),
      .hexadecimal (bigEndian 4 high), .integer cid.toNat]⟩] := by
  obtain ⟨lowText, lowSpelled⟩ := exists_hexSpelled (bigEndian 4 low)
  obtain ⟨highText, highSpelled⟩ := exists_hexSpelled (bigEndian 4 high)
  have blank : Filler isSkipped [0x20] := .byte rfl .nil
  have isWord : IsWord "endcidrange" := by constructor <;> decide +kernel
  have keyword : IsKeyword "endcidrange" := ⟨isWord, by decide⟩
  have small := cid.toNat_lt
  have number : Spelled (K := K) (.value (.integer cid.toNat)) (0x30 :: decimalDigits cid.toNat) :=
    .integer (by simp [minInteger]) (by simp [maxInteger]; omega) (.unsigned (.digits 1 (by simp)))
  have fourth : ContentSpelled (K := K) [.operator (.plain "endcidrange")] _ :=
    .cons blank (.operator keyword) (by simp [Apart]) (.nil .nil)
  have third : ContentSpelled (.operand (.integer cid.toNat) :: _) _ :=
    .cons blank (.operand number) (by simp [Apart, isSkipped, isBlank]) fourth
  have second : ContentSpelled (.operand (.hexadecimal (bigEndian 4 high)) :: _) _ :=
    .cons blank (.operand (.hexadecimal highSpelled)) (by simp [Apart, isSkipped, isBlank]) third
  have first : ContentSpelled (.operand (.hexadecimal (bigEndian 4 low)) :: _) _ :=
    .cons blank (.operand (.hexadecimal lowSpelled)) (by simp [Apart, isSkipped, isBlank]) second
  exact ⟨_, by rw [callsOf, (TokenStream.ofBytes_of_spelled first).1]; rfl⟩

end Programs

theorem cidOf_toNat (cid : UInt32) : cidOf cid.toNat = cid := by
  have small := cid.toNat_lt
  rw [cidOf, if_pos (by simp; omega), Int.toNat_natCast, UInt32.ofNat_toNat]

/-- A program of one range is read as that range. -/
theorem exists_parse_range (K : Type) [Scalar K] [Text.Decoder] {low high : UInt32} (cid : UInt32)
    (ordered : low ≤ high) :
    ∃ data m, parse K data = .ok m ∧ m.identity = false ∧ m.cids = [⟨low, high, cid⟩] := by
  obtain ⟨data, calls⟩ := exists_rangeProgram (K := K) low high cid
  have value (n : UInt32) : codeOf (bigEndian 4 n) = n := codeOf_bigEndian n.toNat_lt
  have entries : cidEntries (Content.callsOf (K := K) data) =
      [.range (.hexadecimal (bigEndian 4 low)) (.hexadecimal (bigEndian 4 high))
        (.integer cid.toNat)] := by
    rw [calls]
    rfl
  have plain : ∀ c ∈ Content.callsOf (K := K) data, ¬c.UsesIdentity := by
    rw [calls]
    simp [Call.UsesIdentity, Operator.plain]
  have gives : (MapEntry.range (.hexadecimal (bigEndian 4 low)) (.hexadecimal (bigEndian 4 high))
      (.integer cid.toNat) : MapEntry K).cidRange? = some ⟨low, high, cid⟩ := by
    simp [MapEntry.cidRange?, cidRangeEntry?, Operand.bytes?, Operand.integer?, value, cidOf_toNat]
  have covered : (MapEntry.range (.hexadecimal (bigEndian 4 low)) (.hexadecimal (bigEndian 4 high))
      (.integer cid.toNat) : MapEntry K).cidAt? low = some cid.toNat := by
    simp [MapEntry.cidAt?, gives, CidRange.covers, ordered]
  obtain ⟨m, accepted⟩ : ∃ m, parse K data = .ok m := exists_parse_of_cids
    (.inr ⟨_, by rw [entries]; exact List.mem_singleton_self _, low, cid.toNat,
      (MapEntry.cidAt?_eq_some_iff ..).mp covered⟩)
  refine ⟨data, m, accepted, identity_eq_false_of_parse accepted plain, ?_⟩
  rw [(collects_parse accepted).cids, entries, List.filterMap_cons_some gives]
  rfl

/-- The numbers of a range are the sums just if the one of the last code has no more than 32 bits. -/
theorem toCid_exact_iff_last {low high cid : UInt32} (plain : m.identity = false)
    (only : m.cids = [⟨low, high, cid⟩]) (ordered : low ≤ high) :
    (∀ code, low ≤ code → code ≤ high → ∃ number, m.toCid code = .ok number ∧
        number.toNat = cid.toNat + (code.toNat - low.toNat)) ↔
      cid.toNat + (high.toNat - low.toNat) < 2 ^ 32 := by
  have sum (code : UInt32) (least : low ≤ code) (most : code ≤ high) :
      (m.toCid code).map UInt32.toNat = fitting (cid.toNat + (code.toNat - low.toNat)) := by
    rw [← UInt32.toNat_sub_of_le _ _ least, ← map_toNat_exactSum]
    simp [toCid, plain, only, CidRange.covers, least, most]
  constructor
  · intro exact_everywhere
    obtain ⟨number, -, value⟩ := exact_everywhere high ordered (UInt32.le_refl high)
    rw [← value]
    exact number.toNat_lt
  · intro fits code least most
    have := UInt32.le_iff_toNat_le.mp most
    rw [← map_toNat_eq_ok_iff, sum code least most]
    exact fitting_eq_ok_iff.mpr (by omega)

/-- A code has the sum of the first number and the offset as its number just if the sum has no more
than 32 bits; if it has more, asking for the number overflows. Entries for one code do not overflow.
All other sums occur: each range with each first number is that of a program, and its codes have the
sums as their numbers just if the last one has. -/
theorem toCid_exact_iff_fits (K : Type) [Scalar K] [Text.Decoder] :
    (∀ data m, parse K data = .ok m → ∀ code,
      ((∃ c ∈ Content.callsOf (K := K) data, c.UsesIdentity) → m.toCid code = .ok code) ∧
      ((∀ c ∈ Content.callsOf (K := K) data, ¬c.UsesIdentity) →
        (∀ n, LastGiving (fun e => e.GivesCid code) (cidEntries (Content.callsOf (K := K) data)) n →
          ((∃ cid, m.toCid code = .ok cid ∧ cid.toNat = n) ↔ n < 2 ^ 32) ∧
            (m.toCid code = .error .sum ↔ 2 ^ 32 ≤ n)) ∧
        ((∀ e ∈ cidEntries (Content.callsOf (K := K) data), ∀ n, ¬e.GivesCid code n) →
          m.toCid code = .ok 0))) ∧
    (∀ (source target : Operand K) code n,
      (MapEntry.char source target).GivesCid code n → n < 2 ^ 32) ∧
    ∀ low high cid : UInt32, low ≤ high →
      ∃ data m, parse K data = .ok m ∧ m.identity = false ∧ m.cids = [⟨low, high, cid⟩] ∧
        ((∀ code, low ≤ code → code ≤ high → ∃ number, m.toCid code = .ok number ∧
            number.toNat = cid.toNat + (code.toNat - low.toNat)) ↔
          cid.toNat + (high.toNat - low.toNat) < 2 ^ 32) := by
  refine ⟨fun data m accepted code => ⟨fun derived => ?_, fun plain => ⟨fun n last => ?_, ?_⟩⟩,
    ?_, ?_⟩
  · exact toCid_of_identity ((identity_iff_of_parse accepted).mpr derived) code
  · rw [← map_toNat_eq_ok_iff, ← map_toNat_eq_error_iff, toCid_of_last accepted plain last]
    exact ⟨fitting_eq_ok_iff, fitting_eq_error_iff⟩
  · exact toCid_of_none accepted plain
  · intro source target code n gives
    cases gives with
    | char _ hasCid =>
        obtain ⟨i, -, rfl⟩ := Option.map_eq_some_iff.mp (Operand.hasCid_iff.mp hasCid)
        exact (cidOf i).toNat_lt
  · intro low high cid ordered
    obtain ⟨data, m, accepted, plain, only⟩ := exists_parse_range K cid ordered
    exact ⟨data, m, accepted, plain, only, toCid_exact_iff_last plain only ordered⟩

/-- The numbers of one range, up to the greatest one of 32 bits and beyond, and of a code that the
range does not cover. -/
theorem toCid_exact_iff_fits_limit :
    let data : Bytes := Text.encodeUtf8 "1 begincidrange <00> <FF> 4294967290 endcidrange"
    let calls := Content.callsOf (K := Int) data
    ∃ m, parse Int data = .ok m ∧ (∀ c ∈ calls, ¬c.UsesIdentity) ∧
      (LastGiving (fun e => e.GivesCid 5) (cidEntries calls) 4294967295 ∧
        m.toCid 5 = .ok 4294967295) ∧
      (LastGiving (fun e => e.GivesCid 6) (cidEntries calls) 4294967296 ∧
        m.toCid 6 = .error .sum) ∧
      m.toCid 256 = .ok 0 := by
  intro data calls
  have read : (parse Int data).toOption.map (fun _ => ()) = some () := by decide +kernel
  obtain ⟨m, accepted, -⟩ := exists_of_parse read
  have plain : ∀ c ∈ calls, ¬c.UsesIdentity := by
    have none : ¬∃ c ∈ calls, c.UsesIdentity := by
      rw [← any_parents_identity]
      decide +kernel
    simpa using none
  have fifth : LastGiving (fun e => e.GivesCid 5) (cidEntries calls) 4294967295 := by
    decide +kernel
  have sixth : LastGiving (fun e => e.GivesCid 6) (cidEntries calls) 4294967296 := by
    decide +kernel
  have uncovered : ∀ e ∈ cidEntries calls, ∀ n, ¬e.GivesCid 256 n :=
    (findSome?_reverse_eq_none_iff (MapEntry.cidAt?_eq_some_iff 256)).mp (by decide +kernel)
  obtain ⟨numbers, -, -⟩ := toCid_exact_iff_fits Int
  obtain ⟨cid, isCid, value⟩ := ((numbers data m accepted 5).2 plain).1 _ fifth |>.1.mpr (by decide)
  obtain rfl : cid = 4294967295 := UInt32.toNat_inj.mp value
  exact ⟨m, accepted, plain, ⟨fifth, isCid⟩,
    ⟨sixth, (((numbers data m accepted 6).2 plain).1 _ sixth).2.mpr (by decide)⟩,
    ((numbers data m accepted 256).2 plain).2 uncovered⟩

/-- The second code of a range that starts with the greatest number of 32 bits has no number. -/
theorem toCid_range_overflows :
    let data : Bytes := Text.encodeUtf8 "1 begincidrange <00> <FF> 4294967295 endcidrange"
    ∃ m, parse Int data = .ok m ∧
      LastGiving (fun e => e.GivesCid 1) (cidEntries (Content.callsOf (K := Int) data)) 4294967296 ∧
      m.toCid 1 = .error .sum := by
  intro data
  have read : (parse Int data).toOption.map (fun m => m.toCid 1) = some (.error .sum) := by
    decide +kernel
  obtain ⟨m, accepted, number⟩ := exists_of_parse read
  exact ⟨m, accepted, by decide +kernel, number⟩

end CMap

end PdfContent
