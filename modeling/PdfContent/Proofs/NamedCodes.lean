import Mathlib.Algebra.Group.Nat.Defs
import Mathlib.Data.List.Induction
import PdfContent.Font.Encoding
import PdfContent.Text.Tables

/-!
# Names at positions

The position of a name in a list of differences is that of the last code before it, counted on by one
for each name in between. A code takes the last name at its position, and what it had before if there
is none. Positions are kept in 32 bits, and so is the one after each name. A list with a name at the
greatest position, or beyond it, is not applied at all: counting on from there overflows. In all other
lists the positions that are kept are the positions themselves.

The induction is on the list from its end: one more entry leaves the positions of all others as they
are.
-/

namespace PdfContent.SimpleEncoding

variable {e e' : SimpleEncoding} {before entries : List Difference} {d : Difference} {c : UInt8}
  {k n : Nat} {glyph : String}

/-! ### Positions -/

/-- The position of what follows some entries: after a code and as many names. -/
def Position (before : List Difference) (n : Nat) : Prop :=
  ∃ (front : List Difference) (start : UInt32) (names : List String),
    before = front ++ .code start :: names.map .name ∧ n = start.toNat + names.length

theorem not_position_nil : ¬Position [] n := by
  rintro ⟨front, start, names, shape, -⟩
  simp at shape

theorem position_concat_code {start : UInt32} :
    Position (before ++ [.code start]) n ↔ n = start.toNat := by
  constructor
  · rintro ⟨front, start', names, shape, rfl⟩
    cases names using List.reverseRecOn with
    | nil =>
        obtain ⟨-, last⟩ := List.append_inj' shape rfl
        cases last
        rfl
    | append_singleton names name =>
        rw [List.map_append, ← List.cons_append, ← List.append_assoc] at shape
        cases (List.append_inj' shape rfl).2
  · rintro rfl
    exact ⟨before, start, [], rfl, rfl⟩

theorem position_concat_name :
    Position (before ++ [.name glyph]) n ↔ ∃ p, Position before p ∧ n = p + 1 := by
  constructor
  · rintro ⟨front, start, names, shape, rfl⟩
    cases names using List.reverseRecOn with
    | nil => cases (List.append_inj' shape rfl).2
    | append_singleton names name =>
        rw [List.map_append, ← List.cons_append, ← List.append_assoc] at shape
        obtain ⟨rfl, -⟩ := List.append_inj' shape rfl
        exact ⟨_, ⟨front, start, names, rfl, rfl⟩, by simp [Nat.add_assoc]⟩
  · rintro ⟨_, ⟨front, start, names, rfl, rfl⟩, rfl⟩
    exact ⟨front, start, names ++ [glyph], by simp, by simp [Nat.add_assoc]⟩

/-- The position after entries, if there is a code before. -/
def positionAfter (position : Option Nat) : List Difference → Option Nat
  | [] => position
  | .code start :: rest => positionAfter (some start.toNat) rest
  | .name _ :: rest => positionAfter (position.map (· + 1)) rest

theorem positionAfter_append (position : Option Nat) (after : List Difference) :
    positionAfter position (before ++ after) = positionAfter (positionAfter position before) after := by
  induction before generalizing position with
  | nil => rfl
  | cons d before ih => cases d <;> exact ih _

theorem positionAfter_eq_some_iff (entries : List Difference) (n : Nat) :
    positionAfter none entries = some n ↔ Position entries n := by
  induction entries using List.reverseRecOn generalizing n with
  | nil => simp [positionAfter, not_position_nil]
  | append_singleton entries d ih =>
      rw [positionAfter_append]
      cases d with
      | code start => simp [positionAfter, position_concat_code, eq_comm]
      | name glyph => simp [positionAfter, ih, position_concat_name, eq_comm (a := n)]

theorem Position.unique {m : Nat} (first : Position entries n) (second : Position entries m) :
    n = m :=
  Option.some.inj (((positionAfter_eq_some_iff ..).mpr first).symm.trans
    ((positionAfter_eq_some_iff ..).mpr second))

/-! ### Names at positions -/

/-- The entry after `k` others is a name, at a position. -/
def NamedAt (entries : List Difference) (k n : Nat) (glyph : String) : Prop :=
  entries[k]? = some (.name glyph) ∧ Position (entries.take k) n

/-- The last name at a position. -/
def LastNamed (entries : List Difference) (n : Nat) (glyph : String) : Prop :=
  ∃ k, NamedAt entries k n glyph ∧ ∀ k' glyph', NamedAt entries k' n glyph' → k' ≤ k

/-- No name stands where counting on would leave 32 bits. -/
def Counts (entries : List Difference) : Prop :=
  ∀ k n glyph, NamedAt entries k n glyph → n < 2 ^ 32 - 1

theorem NamedAt.lt_length (named : NamedAt entries k n glyph) : k < entries.length :=
  (List.getElem?_eq_some_iff.mp named.1).1

/-- One more entry leaves the names before it where they are. -/
theorem namedAt_concat_iff :
    NamedAt (entries ++ [d]) k n glyph ↔
      NamedAt entries k n glyph ∨ k = entries.length ∧ d = .name glyph ∧ Position entries n := by
  unfold NamedAt
  rcases Nat.lt_trichotomy k entries.length with before | rfl | beyond
  · rw [List.getElem?_append_left before, List.take_append_of_le_length (Nat.le_of_lt before)]
    simp [Nat.ne_of_lt before]
  · simp
  · rw [List.getElem?_eq_none (by simp; omega), List.getElem?_eq_none (by omega)]
    simp [Nat.ne_of_gt beyond]

/-- An entry that is no name at a position has no say about it. -/
theorem namedAt_concat_of_elsewhere
    (elsewhere : ∀ glyph, d = .name glyph → ¬Position entries n) :
    NamedAt (entries ++ [d]) k n glyph ↔ NamedAt entries k n glyph := by
  rw [namedAt_concat_iff]
  exact or_iff_left fun ⟨_, isName, position⟩ => elsewhere glyph isName position

theorem LastNamed.concat (last : LastNamed entries n glyph)
    (elsewhere : ∀ glyph, d = .name glyph → ¬Position entries n) :
    LastNamed (entries ++ [d]) n glyph := by
  obtain ⟨k, named, latest⟩ := last
  refine ⟨k, (namedAt_concat_of_elsewhere elsewhere).mpr named, fun k' glyph' named' => ?_⟩
  exact latest k' glyph' ((namedAt_concat_of_elsewhere elsewhere).mp named')

theorem lastNamed_concat_name (position : Position entries n) :
    LastNamed (entries ++ [.name glyph]) n glyph := by
  refine ⟨entries.length, namedAt_concat_iff.mpr (.inr ⟨rfl, rfl, position⟩), ?_⟩
  intro k' glyph' named'
  have inside := named'.lt_length
  rw [List.length_append, List.length_singleton] at inside
  exact Nat.le_of_lt_succ inside

theorem counts_concat_iff :
    Counts (entries ++ [d]) ↔
      Counts entries ∧ ∀ n glyph, d = .name glyph → Position entries n → n < 2 ^ 32 - 1 := by
  simp only [Counts, namedAt_concat_iff]
  constructor
  · intro counts
    exact ⟨fun k n glyph named => counts k n glyph (.inl named),
      fun n glyph isName position => counts _ n glyph (.inr ⟨rfl, isName, position⟩)⟩
  · rintro ⟨counts, last⟩ k n glyph (named | ⟨-, isName, position⟩)
    · exact counts k n glyph named
    · exact last n glyph isName position

/-- Where the codes leave room for the names, all names can be counted. -/
theorem counts_of_room
    (room : ∀ start, .code start ∈ entries → start.toNat + entries.length < 2 ^ 32) :
    Counts entries := by
  rintro k n glyph ⟨isName, front, start, names, shape, rfl⟩
  have among : .code start ∈ entries := List.mem_of_mem_take (by rw [shape]; simp)
  have inside := (List.getElem?_eq_some_iff.mp isName).1
  have shorter := congrArg List.length shape
  simp only [List.length_take, List.length_append, List.length_cons, List.length_map] at shorter
  have := room start among
  omega

/-- Positions after names that can be counted have no more than 32 bits. -/
theorem Position.lt_of_counts (position : Position entries n) (counts : Counts entries) :
    n < 2 ^ 32 := by
  cases entries using List.reverseRecOn with
  | nil => exact absurd position not_position_nil
  | append_singleton entries d =>
      cases d with
      | code start =>
          rw [position_concat_code.mp position]
          exact start.toNat_lt
      | name glyph =>
          obtain ⟨p, here, rfl⟩ := position_concat_name.mp position
          have := (counts_concat_iff.mp counts).2 p glyph rfl here
          omega

/-! ### What becomes of a code -/

section Codes

variable [Text.Decoder]

/-- Of two encodings, the second one gives a code the last name at its position, and keeps what the
first one gives it if there is no such name. -/
inductive TakesLast (entries : List Difference) (e e' : SimpleEncoding) (c : UInt8) : Prop
  | named {glyph : String} :
      LastNamed entries c.toNat glyph → e'.glyphName? c = some glyph →
      e'.text? c = Glyph.text? glyph → TakesLast entries e e' c
  | kept : (∀ k glyph, ¬NamedAt entries k c.toNat glyph) → e'.glyphName? c = e.glyphName? c →
      e'.text? c = e.text? c → TakesLast entries e e' c

/-- Only what differences say matters. -/
theorem TakesLast.of_difference?
    (either : (∃ glyph, LastNamed entries c.toNat glyph ∧ e'.difference? c = some glyph) ∨
      (∀ k glyph, ¬NamedAt entries k c.toNat glyph) ∧ e'.difference? c = e.difference? c)
    (base : e'.base = e.base) : TakesLast entries e e' c := by
  rcases either with ⟨glyph, last, found⟩ | ⟨none, same⟩
  · exact .named last (by simp [glyphName?, found]) (by simp [text?, found])
  · exact .kept none (by simp [glyphName?, same, base]) (by simp [text?, same, base])

end Codes

/-- What comes after some entries is applied at the position where they end. -/
theorem applyFrom_append (position : Option UInt32) (e : SimpleEncoding)
    (after : List Difference) :
    applyFrom position e (before ++ after) = (applyFrom position e before).bind fun e' =>
      applyFrom ((positionAfter (position.map UInt32.toNat) before).map UInt32.ofNat) e' after := by
  induction before generalizing position e with
  | nil => cases position <;> simp [applyFrom, positionAfter, Except.bind]
  | cons d before ih =>
      cases d with
      | code start => exact ih _ _
      | name glyph =>
          cases position with
          | none => exact ih _ _
          | some p =>
              simp only [List.cons_append, applyFrom, positionAfter]
              cases sum : exactSum p 1 with
              | error overflow => rfl
              | ok next =>
                  have counted : next.toNat = p.toNat + 1 := exactSum_eq_ok_iff.mp sum
                  simp only [ih, Option.map_some, counted]

theorem applyDifferences_concat (e : SimpleEncoding) (entries : List Difference) (d : Difference) :
    e.applyDifferences (entries ++ [d]) = (e.applyDifferences entries).bind fun e' =>
      applyFrom ((positionAfter none entries).map UInt32.ofNat) e' [d] :=
  applyFrom_append none e [d]

theorem difference?_setName (e : SimpleEncoding) (b c : UInt8) (glyph : String) :
    (e.setName b glyph).difference? c = if b = c then some glyph else e.difference? c := by
  by_cases same : b = c <;> simp [setName, difference?, same]

/-- A name that can be counted is that of the code where it stands. -/
theorem exists_applyFrom_name (e : SimpleEncoding) (glyph : String) (counted : n < 2 ^ 32 - 1) :
    ∃ e', applyFrom (some (UInt32.ofNat n)) e [.name glyph] = .ok e' ∧ e'.base = e.base ∧
      ∀ c, e'.difference? c = if n = c.toNat then some glyph else e.difference? c := by
  have value : (UInt32.ofNat n).toNat = n := by
    rw [UInt32.toNat_ofNat', Nat.mod_eq_of_lt (by omega)]
  have next : exactSum (UInt32.ofNat n) 1 = .ok (UInt32.ofNat (n + 1)) := by
    rw [exactSum_eq_ok_iff, value, UInt32.toNat_ofNat', Nat.mod_eq_of_lt (by omega)]
    rfl
  have small : UInt32.ofNat n < 256 ↔ n < 256 := by
    rw [UInt32.lt_iff_toNat_lt, value]
    rfl
  rw [applyFrom, next]
  refine ⟨_, rfl, by split <;> rfl, fun c => ?_⟩
  have byte := c.toNat_lt
  split
  next within =>
    have same : (UInt32.ofNat n).toUInt8 = c ↔ n = c.toNat := by
      rw [← UInt8.toNat_inj, UInt32.toNat_toUInt8, value, Nat.mod_eq_of_lt (small.mp within)]
    rw [difference?_setName]
    exact if_congr same rfl rfl
  next beyond =>
    have := small.not.mp beyond
    rw [if_neg (by omega)]

/-- The entry has no say about a code, so that what is known of the others is all there is to know. -/
theorem either_concat_of_elsewhere {f f' : Option String}
    (either : (∃ glyph, LastNamed entries n glyph ∧ f' = some glyph) ∨
      (∀ k glyph, ¬NamedAt entries k n glyph) ∧ f' = f)
    (elsewhere : ∀ glyph, d = .name glyph → ¬Position entries n) :
    (∃ glyph, LastNamed (entries ++ [d]) n glyph ∧ f' = some glyph) ∨
      (∀ k glyph, ¬NamedAt (entries ++ [d]) k n glyph) ∧ f' = f := by
  rcases either with ⟨glyph, last, found⟩ | ⟨none, same⟩
  · exact .inl ⟨glyph, last.concat elsewhere, found⟩
  · refine .inr ⟨fun k glyph named => none k glyph ?_, same⟩
    exact (namedAt_concat_of_elsewhere elsewhere).mp named

/-- What the differences say of each code, where all names can be counted. -/
theorem exists_applyDifferences_of_counts (e : SimpleEncoding) (counts : Counts entries) :
    ∃ e', e.applyDifferences entries = .ok e' ∧ e'.base = e.base ∧
      ∀ c : UInt8, (∃ glyph, LastNamed entries c.toNat glyph ∧ e'.difference? c = some glyph) ∨
        (∀ k glyph, ¬NamedAt entries k c.toNat glyph) ∧ e'.difference? c = e.difference? c := by
  induction entries using List.reverseRecOn with
  | nil => exact ⟨e, rfl, rfl, fun c => .inr ⟨fun k glyph named => by simp [NamedAt] at named, rfl⟩⟩
  | append_singleton entries d ih =>
      obtain ⟨before, here⟩ := counts_concat_iff.mp counts
      obtain ⟨e₀, applied, base, either⟩ := ih before
      rw [applyDifferences_concat, applied, Except.bind]
      cases d with
      | code start =>
          exact ⟨e₀, rfl, base, fun c => either_concat_of_elsewhere (either c) nofun⟩
      | name glyph =>
          cases position : positionAfter none entries with
          | none =>
              refine ⟨e₀, rfl, base, fun c => either_concat_of_elsewhere (either c) fun _ _ found => ?_⟩
              rw [← positionAfter_eq_some_iff, position] at found
              cases found
          | some n =>
              rw [positionAfter_eq_some_iff] at position
              obtain ⟨e', named, base', difference⟩ :=
                exists_applyFrom_name e₀ glyph (here n glyph rfl position)
              refine ⟨e', named, base'.trans base, fun c => ?_⟩
              rw [difference]
              split
              next same => exact .inl ⟨glyph, lastNamed_concat_name (same ▸ position), rfl⟩
              next other =>
                exact either_concat_of_elsewhere (either c) fun _ _ found => other (position.unique found)

/-- Behind the greatest position there is none to count on to. -/
theorem applyDifferences_of_not_counts (e : SimpleEncoding) (beyond : ¬Counts entries) :
    e.applyDifferences entries = .error .sum := by
  induction entries using List.reverseRecOn with
  | nil => exact absurd (fun k n glyph named => by simp [NamedAt] at named) beyond
  | append_singleton entries d ih =>
      rw [applyDifferences_concat]
      by_cases counts : Counts entries
      · obtain ⟨n, glyph, rfl, position, great⟩ :
            ∃ n glyph, d = .name glyph ∧ Position entries n ∧ 2 ^ 32 - 1 ≤ n := by
          simpa [counts_concat_iff, counts] using beyond
        obtain ⟨e', applied, -⟩ := exists_applyDifferences_of_counts e counts
        have small := position.lt_of_counts counts
        have overflow : exactSum (UInt32.ofNat n) 1 = .error .sum := by
          rw [exactSum_eq_error_iff, UInt32.toNat_ofNat', Nat.mod_eq_of_lt small]
          simp only [UInt32.reduceToNat]
          omega
        rw [applied, (positionAfter_eq_some_iff ..).mpr position, Except.bind, Option.map_some,
          applyFrom, overflow]
      · rw [ih counts, Except.bind]

/-- Where all names stand at positions that can be counted on from, each code takes the last name at
its position. Otherwise the list overflows and gives no encoding. -/
theorem applyDifferences_takesLast [Text.Decoder] (e : SimpleEncoding) (entries : List Difference) :
    (Counts entries → ∃ e', e.applyDifferences entries = .ok e' ∧ ∀ c, TakesLast entries e e' c) ∧
      (¬Counts entries → e.applyDifferences entries = .error .sum) := by
  refine ⟨fun counts => ?_, applyDifferences_of_not_counts e⟩
  obtain ⟨e', applied, base, either⟩ := exists_applyDifferences_of_counts e counts
  exact ⟨e', applied, fun c => .of_difference? (either c) base⟩

attribute [local instance] Text.byTables

/-- Runs of names that overlap and reach beyond a byte, and a list with a name at the greatest
position. -/
theorem applyDifferences_takesLast_runs :
    let e := ofBase .winAnsi
    let runs : List Difference := [.name "x", .code 65, .name "B", .name "C", .name "D", .code 66,
      .name "E", .code 255, .name "F", .name "G", .code 4294967280, .name "H"]
    let great : List Difference := [.code 65, .name "B", .code 4294967295, .name "C"]
    (Counts runs ∧ ∃ e', e.applyDifferences runs = .ok e' ∧ (∀ c, TakesLast runs e e' c) ∧
      ([0, 65, 66, 67, 68, 255].map fun c => e'.glyphName? c) =
        [none, some "B", some "E", some "D", none, some "F"]) ∧
    ¬Counts great ∧ e.applyDifferences great = .error .sum := by
  intro e runs great
  have counts : Counts runs := by
    refine counts_of_room fun start among => ?_
    simp only [runs, List.mem_cons, Difference.code.injEq, List.not_mem_nil, reduceCtorEq, or_false,
      false_or] at among
    rcases among with rfl | rfl | rfl | rfl <;> decide
  have beyond : ¬Counts great := fun counts =>
    absurd (counts 3 4294967295 "C" ⟨rfl, [.code 65, .name "B"], 4294967295, [], rfl, rfl⟩) (by decide)
  obtain ⟨e', applied, takes⟩ := (applyDifferences_takesLast e runs).1 counts
  have names : ((e.applyDifferences runs).toOption.map fun e' =>
      [0, 65, 66, 67, 68, 255].map fun c => e'.glyphName? c) =
        some [none, some "B", some "E", some "D", none, some "F"] := by
    decide +kernel
  rw [applied] at names
  exact ⟨⟨counts, e', applied, takes, Option.some.inj names⟩, beyond,
    (applyDifferences_takesLast e great).2 beyond⟩

/-- A single name at the greatest position overflows, and with it no code has a name. -/
theorem applyDifferences_overflows :
    let entries : List Difference := [.code 4294967295, .name "A", .name "B"]
    NamedAt entries 1 4294967295 "A" ∧ (ofBase .winAnsi).applyDifferences entries = .error .sum :=
  ⟨⟨rfl, [], 4294967295, [], rfl, rfl⟩, by decide +kernel⟩

end PdfContent.SimpleEncoding
