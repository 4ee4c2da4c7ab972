import Mathlib.Logic.Function.Basic
import PdfContent.Proofs.MapPrograms
import PdfContent.Text.Tables

/-!
# The text of codes

An entry of a program gives a text to one code or to each code of a range, or to none where a part is
missing or of another type, or where the range ends before it starts. `MapEntry.GivesText` says which,
with targets that count on as numbers. The text of a code is the one of the last entry that gives it
any. It is the same text as in a table that is filled while the program is read, code by code, each
text in place of the one that was there.
-/

namespace PdfContent

variable {K : Type}

/-! ### Counting on from a target -/

namespace CMap

theorem lt_of_mem_digits (s : Bytes) : ∀ d ∈ s.map UInt8.toNat, d < 256 := by
  intro d among
  obtain ⟨b, -, rfl⟩ := List.mem_map.mp among
  exact b.toNat_lt

theorem bigEndianValue_inj {s t : Bytes} (length : s.length = t.length)
    (value : bigEndianValue s = bigEndianValue t) : s = t := by
  have digits := Nat.ofDigits_inj_of_len_eq (by decide) (by simpa using length)
    (lt_of_mem_digits s.reverse) (lt_of_mem_digits t.reverse) value
  exact List.reverse_injective (List.map_injective_iff.mpr (fun _ _ => UInt8.toNat_inj.mp) digits)

theorem length_incrementReversed (s : Bytes) (carry : Nat) :
    (incrementReversed s carry).length = s.length := by
  induction s generalizing carry with
  | nil => rfl
  | cons b s ih =>
      rw [incrementReversed]
      split
      · rfl
      · rw [List.length_cons, ih, List.length_cons]

theorem ofDigits_incrementReversed (s : Bytes) (carry : Nat) :
    Nat.ofDigits 256 ((incrementReversed s carry).map UInt8.toNat) =
      (Nat.ofDigits 256 (s.map UInt8.toNat) + carry) % 256 ^ s.length := by
  induction s generalizing carry with
  | nil => simp [incrementReversed, Nat.mod_one]
  | cons b s ih =>
      rw [incrementReversed]
      split
      next nothing =>
        have fits := Nat.ofDigits_lt_base_pow_length (by decide) (lt_of_mem_digits (b :: s))
        rw [List.length_map] at fits
        rw [beq_iff_eq.mp nothing, Nat.add_zero, Nat.mod_eq_of_lt fits]
      next =>
        rw [List.map_cons, Nat.ofDigits_cons, ih, List.map_cons, Nat.ofDigits_cons, List.length_cons,
          Nat.pow_succ', Nat.mod_mul, UInt8.toNat_ofNat']
        generalize Nat.ofDigits 256 (s.map UInt8.toNat) = rest
        have low : (b.toNat + 256 * rest + carry) % 256 = (b.toNat + carry) % 2 ^ 8 := by omega
        have high : (b.toNat + 256 * rest + carry) / 256 = rest + (b.toNat + carry) / 256 := by
          omega
        rw [low, high]

@[simp] theorem length_increment (s : Bytes) (offset : Nat) :
    (increment s offset).length = s.length := by
  rw [increment, List.length_reverse, length_incrementReversed, List.length_reverse]

theorem bigEndianValue_increment (s : Bytes) (offset : Nat) :
    bigEndianValue (increment s offset) = (bigEndianValue s + offset) % 256 ^ s.length := by
  rw [bigEndianValue, increment, List.reverse_reverse, ofDigits_incrementReversed,
    List.length_reverse, bigEndianValue]

end CMap

/-! ### Texts that entries give -/

section Texts

variable [Text.Decoder]

/-- What a target string stands for: a single byte for the Latin character of its number, any other
string for the text that it is in UTF-16. -/
inductive StandsFor : Bytes → String → Prop
  | latin {b : UInt8} {c : Char} : c.toNat = b.toNat → StandsFor [b] (String.singleton c)
  | utf16 {t : Bytes} : t.length ≠ 1 → StandsFor t (Text.Decoder.decode .utf16 t).1

theorem CMap.targetText_eq_iff {t : Bytes} {text : String} :
    targetText t = text ↔ StandsFor t text := by
  have value (b : UInt8) : (Char.ofNat b.toNat).toNat = b.toNat := by
    have := b.toNat_lt
    rw [Char.ofNat, dif_pos (.inl (by omega))]
    exact UInt32.toNat_ofNatLT
  constructor
  · rintro rfl
    unfold targetText
    split
    next b => exact .latin (value b)
    next several =>
      refine .utf16 fun one => ?_
      obtain ⟨b, alone⟩ := List.length_eq_one_iff.mp one
      exact several b alone
  · intro stands
    cases stands with
    | @latin b c same => rw [targetText, ← same, Char.ofNat_toNat]
    | utf16 several => exact targetText.eq_2 t fun b alone => several (by rw [alone]; rfl)

namespace MapEntry

open CMap (codeOf targetText targetText_eq_iff increment)

/-- The texts that an entry gives to codes. One target for a range is that of the first code, and the
others follow it as numbers of the same length. -/
inductive GivesText : MapEntry K → UInt32 → String → Prop
  | string {source target : Operand K} {code : UInt32} {t : Bytes} {text : String} :
      source.HasCode code → target.bytes? = some t → StandsFor t text →
      GivesText (.char source target) code text
  | glyph {source : Operand K} {code : UInt32} {name text : String} :
      source.HasCode code → Glyph.text? name = some text →
      GivesText (.char source (.name name)) code text
  | consecutive {low high target : Operand K} {code : UInt32} {k : Nat} {start t : Bytes}
      {text : String} :
      InRange low high code k → target.bytes? = some start → t.length = start.length →
      bigEndianValue t = (bigEndianValue start + k) % 256 ^ start.length → StandsFor t text →
      GivesText (.range low high target) code text
  | listed {low high element : Operand K} {targets : List (Operand K)} {code : UInt32} {k : Nat}
      {t : Bytes} {text : String} :
      InRange low high code k → targets[k]? = some element → element.bytes? = some t →
      StandsFor t text → GivesText (.range low high (.array targets)) code text

/-- The text that an entry gives to a code. -/
def textAt? (code : UInt32) (e : MapEntry K) : Option String :=
  e.textRange?.bind fun r => r.text? code

/-- The text that an operand stands for as the target of one code. -/
def singleText? : Operand K → Option String
  | .name glyph => Glyph.text? glyph
  | other => other.bytes?.map targetText

theorem singleText?_eq_some_iff {source target : Operand K} {code : UInt32} {text : String}
    (hasCode : source.HasCode code) :
    singleText? target = some text ↔ (char source target).GivesText code text := by
  constructor
  · intro found
    unfold singleText? at found
    split at found
    next glyph => exact .glyph hasCode found
    next =>
      obtain ⟨t, isString, isText⟩ := Option.map_eq_some_iff.mp found
      exact .string hasCode isString (targetText_eq_iff.mp isText)
  · intro gives
    cases gives with
    | string _ isString stands =>
        obtain rfl := targetText_eq_iff.mpr stands
        cases target <;> cases isString <;> rfl
    | glyph _ isText => exact isText

theorem GivesText.hasCode {source target : Operand K} {code : UInt32} {text : String}
    (gives : (char source target).GivesText code text) : source.HasCode code := by
  cases gives <;> assumption

theorem textAt?_char {source target : Operand K} {code : UInt32} {text : String} :
    (char source target).textAt? code = some text ↔ (char source target).GivesText code text := by
  have range : (char source target).textRange? = source.bytes?.bind fun s =>
      (singleText? target).map fun text => ⟨codeOf s, codeOf s, .one text⟩ := by
    cases found : source.bytes? with
    | none => simp [textRange?, CMap.textEntry?, found]
    | some s =>
        cases target <;> simp [textRange?, CMap.textEntry?, found, singleText?, Option.map_eq_bind]
  have at_code (s : Bytes) (text : String) :
      TextRange.text? ⟨codeOf s, codeOf s, .one text⟩ code =
        if codeOf s = code then some text else none := by
    simp [TextRange.text?, UInt32.le_antisymm_iff]
  simp only [textAt?, range, Option.bind_eq_some_iff, Option.map_eq_some_iff]
  constructor
  · rintro ⟨_, ⟨s, isSource, text', isTarget, rfl⟩, found⟩
    rw [at_code] at found
    split at found
    next same =>
      cases found
      exact (singleText?_eq_some_iff (Operand.hasCode_iff.mpr (by rw [isSource, ← same]; rfl))).mp
        isTarget
    next => cases found
  · intro gives
    obtain ⟨s, isSource, same⟩ := Option.map_eq_some_iff.mp (Operand.hasCode_iff.mp gives.hasCode)
    refine ⟨_, ⟨s, isSource, text, (singleText?_eq_some_iff gives.hasCode).mpr gives, rfl⟩, ?_⟩
    rw [at_code, if_pos same]

/-- The text that an operand stands for as the target of a range, `k` codes after the first one. -/
def rangeText? (k : Nat) : Operand K → Option String
  | .array targets => (targets[k]?.bind Operand.bytes?).map targetText
  | other => other.bytes?.map fun start => targetText (increment start k)

theorem rangeText?_eq_some_iff {low high target : Operand K} {code : UInt32} {k : Nat}
    {text : String} (within : InRange low high code k) :
    rangeText? k target = some text ↔ (range low high target).GivesText code text := by
  constructor
  · intro found
    unfold rangeText? at found
    split at found
    next targets =>
      obtain ⟨t, isElement, isText⟩ := Option.map_eq_some_iff.mp found
      obtain ⟨element, listed, isString⟩ := Option.bind_eq_some_iff.mp isElement
      exact .listed within listed isString (targetText_eq_iff.mp isText)
    next =>
      obtain ⟨start, isString, isText⟩ := Option.map_eq_some_iff.mp found
      exact .consecutive within isString (CMap.length_increment start k)
        (CMap.bigEndianValue_increment start k) (targetText_eq_iff.mp isText)
  · intro gives
    cases gives with
    | @consecutive _ _ _ _ _ start t _ within' isString length value stands =>
        obtain rfl := targetText_eq_iff.mpr stands
        obtain rfl := within.offset_eq within'
        have counted : increment start k = t :=
          CMap.bigEndianValue_inj (by rw [CMap.length_increment, length])
            (by rw [CMap.bigEndianValue_increment, value])
        cases target <;> cases isString <;> exact congrArg (fun t => some (targetText t)) counted
    | listed within' listed isString stands =>
        obtain rfl := targetText_eq_iff.mpr stands
        obtain rfl := within.offset_eq within'
        simp [rangeText?, listed, isString]

theorem GivesText.inRange {low high target : Operand K} {code : UInt32} {text : String}
    (gives : (range low high target).GivesText code text) : ∃ k, InRange low high code k := by
  cases gives <;> exact ⟨_, by assumption⟩

theorem textRange?_range (low high target : Operand K) :
    (range low high target).textRange? = low.bytes?.bind fun l => high.bytes?.bind fun h =>
      match target with
      | .array targets => some ⟨codeOf l, codeOf h, .listed (targets.map Operand.bytes?)⟩
      | other => other.bytes?.map fun start => ⟨codeOf l, codeOf h, .consecutive start⟩ :=
  rfl

theorem textAt?_range {low high target : Operand K} {code : UInt32} {text : String} :
    (range low high target).textAt? code = some text ↔
      (range low high target).GivesText code text := by
  have shape : (range low high target).textAt? code =
      low.bytes?.bind fun l => high.bytes?.bind fun h =>
        if codeOf l ≤ code ∧ code ≤ codeOf h then rangeText? (code - codeOf l).toNat target
        else none := by
    have target (l h : Bytes) :
        ((match target with
          | .array targets =>
              some (⟨codeOf l, codeOf h, .listed (targets.map Operand.bytes?)⟩ : TextRange)
          | other => other.bytes?.map fun start => ⟨codeOf l, codeOf h, .consecutive start⟩).bind
            fun r => r.text? code) =
          if codeOf l ≤ code ∧ code ≤ codeOf h then rangeText? (code - codeOf l).toNat target
          else none := by
      cases target <;>
        simp [TextRange.text?, rangeText?, Operand.bytes?, ← Option.bind_id_eq_join, Option.map_bind,
          Option.bind_map, Function.comp_def]
    rw [textAt?, textRange?_range]
    simp only [Option.bind_assoc, target]
  simp only [shape, Option.bind_eq_some_iff]
  constructor
  · rintro ⟨l, isLow, h, isHigh, found⟩
    split at found
    next bounds =>
      have within : InRange low high code _ := inRange_iff.mpr ⟨l, h, isLow, isHigh, bounds, rfl⟩
      exact (rangeText?_eq_some_iff within).mp found
    next => cases found
  · intro gives
    obtain ⟨k, within⟩ := gives.inRange
    obtain ⟨l, h, isLow, isHigh, bounds, rfl⟩ := inRange_iff.mp within
    exact ⟨l, isLow, h, isHigh, by rw [if_pos bounds, rangeText?_eq_some_iff within]; exact gives⟩

theorem textAt?_eq_some_iff (code : UInt32) (e : MapEntry K) (text : String) :
    e.textAt? code = some text ↔ e.GivesText code text := by
  cases e with
  | char => exact textAt?_char
  | range => exact textAt?_range

/-! ### A table of texts -/

/-- The codes from one to another. -/
def codesBetween (low high : UInt32) : List UInt32 :=
  (List.range' low.toNat (high.toNat + 1 - low.toNat)).map UInt32.ofNat

/-- What an entry sets in a table, one code after another. -/
def settings : MapEntry K → List (UInt32 × String)
  | .char source target =>
    (source.bytes?.bind fun s => (singleText? target).map fun text => (codeOf s, text)).toList
  | .range low high target =>
    match low.bytes?, high.bytes? with
    | some l, some h =>
      (codesBetween (codeOf l) (codeOf h)).zipIdx.filterMap fun place =>
        (rangeText? place.2 target).map fun text => (place.1, text)
    | _, _ => []

omit [Text.Decoder] in
theorem mem_codesBetween {low high code : UInt32} {k : Nat} :
    (code, k) ∈ (codesBetween low high).zipIdx ↔
      (low ≤ code ∧ code ≤ high) ∧ k = (code - low).toNat := by
  simp only [List.mem_zipIdx_iff_getElem?, codesBetween, List.getElem?_map, Option.map_eq_some_iff,
    List.getElem?_eq_some_iff, List.getElem_range', List.length_range', UInt32.le_iff_toNat_le]
  have := high.toNat_lt
  constructor
  · rintro ⟨_, ⟨small, rfl⟩, rfl⟩
    have value : (UInt32.ofNat (low.toNat + 1 * k)).toNat = low.toNat + k := by
      rw [UInt32.toNat_ofNat', Nat.mod_eq_of_lt] <;> omega
    have least : low ≤ UInt32.ofNat (low.toNat + 1 * k) :=
      UInt32.le_iff_toNat_le.mpr (by omega)
    rw [UInt32.toNat_sub_of_le _ _ least, value]
    omega
  · rintro ⟨⟨least, most⟩, rfl⟩
    rw [UInt32.toNat_sub_of_le _ _ (UInt32.le_iff_toNat_le.mpr least)]
    refine ⟨code.toNat, ⟨by omega, by omega⟩, UInt32.ofNat_toNat⟩

theorem mem_settings {e : MapEntry K} {code : UInt32} {text : String} :
    (code, text) ∈ e.settings ↔ e.GivesText code text := by
  cases e with
  | char source target =>
      simp only [settings, Option.mem_toList, Option.bind_eq_some_iff, Option.map_eq_some_iff,
        Prod.mk.injEq]
      constructor
      · rintro ⟨s, isSource, text', isTarget, rfl, rfl⟩
        have hasCode : source.HasCode (codeOf s) := Operand.hasCode_iff.mpr (by rw [isSource]; rfl)
        exact (singleText?_eq_some_iff hasCode).mp isTarget
      · intro gives
        obtain ⟨s, isSource, same⟩ :=
          Option.map_eq_some_iff.mp (Operand.hasCode_iff.mp gives.hasCode)
        exact ⟨s, isSource, text, (singleText?_eq_some_iff gives.hasCode).mpr gives, same, rfl⟩
  | range low high target =>
      constructor
      · intro among
        simp only [settings] at among
        split at among
        next l h isLow isHigh =>
          obtain ⟨⟨code', k⟩, listed, found⟩ := List.mem_filterMap.mp among
          obtain ⟨text', isTarget, same⟩ := Option.map_eq_some_iff.mp found
          cases same
          obtain ⟨bounds, rfl⟩ := mem_codesBetween.mp listed
          exact (rangeText?_eq_some_iff (inRange_iff.mpr ⟨l, h, isLow, isHigh, bounds, rfl⟩)).mp
            isTarget
        next => cases among
      · intro gives
        obtain ⟨k, within⟩ := gives.inRange
        have isTarget := (rangeText?_eq_some_iff within).mpr gives
        obtain ⟨l, h, isLow, isHigh, bounds, rfl⟩ := inRange_iff.mp within
        rw [settings, isLow, isHigh]
        exact List.mem_filterMap.mpr ⟨_, mem_codesBetween.mpr ⟨bounds, rfl⟩, by rw [isTarget]; rfl⟩

/-- Texts that are set later replace those that were set before. -/
def setIn (table : UInt32 → Option String) (s : UInt32 × String) : UInt32 → Option String :=
  Function.update table s.1 (some s.2)

/-- The table in which the texts of entries are set, entry by entry. -/
def tableOf (entries : List (MapEntry K)) : UInt32 → Option String :=
  entries.foldl (fun table e => e.settings.foldl setIn table) fun _ => none

/-- The text that is set for a code. -/
def settingOf? (code : UInt32) (s : UInt32 × String) : Option String :=
  if s.1 = code then some s.2 else none

omit [Text.Decoder] in
theorem foldl_setIn (l : List (UInt32 × String)) (table : UInt32 → Option String) (code : UInt32) :
    l.foldl setIn table code = (l.reverse.findSome? (settingOf? code)).or (table code) := by
  induction l generalizing table with
  | nil => rfl
  | cons s l ih =>
      have one : setIn table s code = (settingOf? code s).or (table code) := by
        rw [setIn, Function.update_apply, settingOf?]
        by_cases same : s.1 = code
        · rw [if_pos same.symm, if_pos same, Option.some_or]
        · rw [if_neg (Ne.symm same), if_neg same, Option.none_or]
      rw [List.foldl_cons, ih, one, List.reverse_cons, List.findSome?_append, Option.or_assoc]
      cases found : settingOf? code s <;> simp [found]

theorem findSome?_settings (e : MapEntry K) (code : UInt32) :
    e.settings.reverse.findSome? (settingOf? code) = e.textAt? code := by
  have settingOf?_eq (s : UInt32 × String) (text : String) :
      settingOf? code s = some text ↔ s = (code, text) := by
    simp [settingOf?, Prod.ext_iff]
  have given (text : String)
      (found : e.settings.reverse.findSome? (settingOf? code) = some text) :
      e.textAt? code = some text := by
    obtain ⟨s, among, isText⟩ := List.exists_of_findSome?_eq_some found
    rw [(settingOf?_eq s text).mp isText, List.mem_reverse, mem_settings] at among
    exact (textAt?_eq_some_iff code e text).mpr among
  apply Option.ext
  refine fun text => ⟨given text, fun found => ?_⟩
  have among : (code, text) ∈ e.settings :=
    mem_settings.mpr ((textAt?_eq_some_iff code e text).mp found)
  have something : (e.settings.reverse.findSome? (settingOf? code)).isSome :=
    List.findSome?_isSome_iff.mpr ⟨_, List.mem_reverse.mpr among, by simp [settingOf?]⟩
  obtain ⟨text', first⟩ := Option.isSome_iff_exists.mp something
  rw [first, ← given text' first, found]

/-- A table that is filled entry by entry holds what the last entry gives. -/
theorem tableOf_eq (entries : List (MapEntry K)) (code : UInt32) :
    tableOf entries code = entries.reverse.findSome? (textAt? code) := by
  have filled (table : UInt32 → Option String) :
      entries.foldl (fun table e => e.settings.foldl setIn table) table code =
        (entries.reverse.findSome? (textAt? code)).or (table code) := by
    induction entries generalizing table with
    | nil => rfl
    | cons e entries ih =>
        rw [List.foldl_cons, ih, foldl_setIn, findSome?_settings, List.reverse_cons,
          List.findSome?_append, Option.or_assoc]
        cases found : e.textAt? code <;> simp [found]
  rw [tableOf, filled, Option.or_none]

end MapEntry

namespace CMap

variable [Scalar K]

theorem text?_of_plain {m : CMap} (plain : m.charset = none) (code : UInt32) :
    m.text? code = m.mappedText? code := by
  rw [text?, plain]
  exact Option.or_none

/-- The text of a code is what the last entry gives that gives it any, of all sections before the
first fault, and there is none just if no entry gives any. It is also what a table holds in which the
texts of all entries are set in the order of the program. -/
theorem text?_lastGiving (data : Bytes) (m : CMap) (accepted : parse K data = .ok m)
    (plain : ∀ parent ∈ parents (Content.callsOf (K := K) data), parent.charset = none)
    (code : UInt32) :
    let entries := textEntries (Content.callsOf (K := K) data)
    (∀ text, m.text? code = some text ↔ LastGiving (fun e => e.GivesText code) entries text) ∧
    (m.text? code = none ↔ ∀ e ∈ entries, ∀ text, ¬e.GivesText code text) ∧
    m.text? code = MapEntry.tableOf entries code := by
  intro entries
  have collects := collects_parse accepted
  have noCharset : m.charset = none := by
    rw [collects.charset]
    exact List.findSome?_eq_none_iff.mpr plain
  have lookup : m.text? code = entries.reverse.findSome? (MapEntry.textAt? code) := by
    rw [text?_of_plain noCharset, mappedText?, collects.texts, empty, List.nil_append,
      ← List.filterMap_reverse, findSome?_filterMap]
    rfl
  have last (text : String) :
      m.text? code = some text ↔ LastGiving (fun e => e.GivesText code) entries text := by
    rw [lookup]
    exact findSome?_reverse_iff_lastGiving (MapEntry.textAt?_eq_some_iff code)
  refine ⟨last, ?_, ?_⟩
  · rw [lookup]
    exact findSome?_reverse_eq_none_iff (MapEntry.textAt?_eq_some_iff code)
  · rw [lookup, MapEntry.tableOf_eq]

end CMap

end Texts

namespace CMap

attribute [local instance] Text.byTables

/-- Ranges that overlap, that end before they start, that lack a code, and with an array that has
one string; and a target of a single byte. -/
theorem text?_lastGiving_overlap :
    let data : Bytes := Text.encodeUtf8
      "<41> <44> <00FE> <42> 7 <0030> <44> <41> <0031> endbfrange <42> /eacute <46> <E8> <43> endbfchar
      <42> <43> [5 (ab)] endbfrange"
    let entries := textEntries (Content.callsOf (K := Int) data)
    (∀ parent ∈ parents (Content.callsOf (K := Int) data), parent.charset = none) ∧
      ∃ m, parse Int data = .ok m ∧
        LastGiving (fun e => e.GivesText 0x41) entries "þ" ∧
        LastGiving (fun e => e.GivesText 0x42) entries "é" ∧
        LastGiving (fun e => e.GivesText 0x43) entries "慢" ∧
        LastGiving (fun e => e.GivesText 0x44) entries "ā" ∧
        LastGiving (fun e => e.GivesText 0x46) entries "è" ∧
        ∀ e ∈ entries, ∀ text, ¬e.GivesText 0x45 text := by
  intro data entries
  have plain : ∀ parent ∈ parents (Content.callsOf (K := Int) data), parent.charset = none := by
    decide +kernel
  have read : (parse Int data).toOption.map
      (fun m => ([0x41, 0x42, 0x43, 0x44, 0x46, 0x45] : List UInt32).map m.text?) =
        some [some "þ", some "é", some "慢", some "ā", some "è", none] := by
    decide +kernel
  obtain ⟨m, accepted, texts⟩ := exists_of_parse read
  simp only [List.map_cons, List.map_nil, List.cons.injEq, and_true] at texts
  obtain ⟨first, second, third, fourth, single, none⟩ := texts
  have last := text?_lastGiving data m accepted plain
  exact ⟨plain, m, accepted, ((last _).1 _).mp first, ((last _).1 _).mp second,
    ((last _).1 _).mp third, ((last _).1 _).mp fourth, ((last _).1 _).mp single,
    (last _).2.1.mp none⟩

end CMap

end PdfContent
