import PdfContent.Proofs.EnclosureReading

/-!
# Whatever the bytes are, an enclosure in them is closed or it is not

A value that starts somewhere is closed, or the bytes end inside of it, and so for the loops of the
reader and for whole content: there is always a list of what is left open (`Unclosed.exists`). There
is one such list only (`Unclosed.unique`), since a loop cannot meet two things in one place and a
value that is closed is read in one way.
-/

namespace PdfContent.Content

variable {K : Type} [Scalar K] {b : UInt8} {s t rest : Bytes}

/-! ### What is closed, and what is not -/

variable (K) in
/-- The value at the start is closed, or the bytes end inside of it. -/
def SettledValue (s : Bytes) : Prop :=
  (∃ value rest, Whole K (.value value) s rest) ∨ ∃ left, Broken K none s left

variable (K) in
/-- Every loop is closed in these bytes, or they end inside of it. -/
def SettledLoop (s : Bytes) : Prop :=
  ∀ (l : Loop) (before : l.Data K),
    (∃ all rest, Whole K (.loop l before all) s rest) ∨ ∃ left, Broken K (some l) s left

theorem visible_of_skipBlank (found : skipBlank s = b :: rest) : isBlank b = false ∧ b ≠ 0x25 := by
  fun_induction skipBlank s with
  | case1 => cases found
  | case2 _ _ _ ih => exact ih found
  | case3 _ _ _ _ ih => exact ih found
  | case4 c tail blank comment =>
      cases found
      exact ⟨by simpa using blank, by simpa using comment⟩

/-- The place of a value is the first one that is not passed over. -/
theorem Loop.place_of_meets {l : Loop} {key : Option String} (meets : l.meets s = .slot key t) :
    ∃ u, u <:+ s ∧ t ≠ [] ∧ skipBlank u = t := by
  have ofKey {rest : Bytes} (suffix : rest <:+ s) (met : Meeting.ofKey rest = .slot key t) :
      ∃ u, u <:+ s ∧ t ≠ [] ∧ skipBlank u = t := by
    unfold Meeting.ofKey at met
    split at met
    · cases met
    next found =>
      cases met
      exact ⟨afterWord rest, (afterWord_suffix rest).trans suffix, List.cons_ne_nil _ _, found⟩
  unfold Loop.meets at meets
  split at meets
  · cases meets
  next b rest found =>
    have suffix := (ahead_of_skipBlank found).suffix
    cases l <;> dsimp only at meets <;> repeat' split at meets
    all_goals
      first
      | exact ofKey suffix meets
      | cases meets; done
      | cases meets; exact ⟨s, List.suffix_rfl, List.cons_ne_nil _ _, found⟩

theorem Loop.ahead_of_meets {l : Loop} (meets : l.meets s = .passing t) : Ahead s t := by
  have ofKey (rest : Bytes) : Meeting.ofKey rest ≠ .passing t := by
    unfold Meeting.ofKey
    split <;> simp
  unfold Loop.meets at meets
  split at meets
  · cases meets
  next b rest found =>
    cases l <;> dsimp only at meets <;> repeat' split at meets
    all_goals
      first
      | exact absurd meets (ofKey rest)
      | cases meets; done
      | cases meets; exact (ahead_of_skipBlank found).trans_suffix (afterWord_suffix rest)

theorem Whole.suffix {value : Option (Operand K)} (whole : Whole K (.value value) s rest) :
    rest <:+ s :=
  operand_suffix whole.read_value

theorem Whole.ahead {value : Option (Operand K)} (whole : Whole K (.value value) (b :: s) rest) :
    Ahead (b :: s) rest :=
  ahead_of_operand whole.read_value

theorem settledValue_literal (s : Bytes) : SettledValue K (0x28 :: s) := by
  cases read : literal? 0 s with
  | none =>
      refine .inr ⟨_, .literal fun value text rest body shape => ?_⟩
      rw [literal?_eq_some_iff.mpr ⟨text, body, shape⟩] at read
      cases read
  | some result =>
      obtain ⟨value, rest⟩ := result
      obtain ⟨text, body, rfl⟩ := literal?_eq_some_iff.mp read
      exact .inl ⟨_, rest, .literal body⟩

/-- One bracket opens a string, and two open a dictionary. -/
theorem settledValue_bracket (inner : ∀ t, t.length < s.length → SettledLoop K t) :
    SettledValue K (0x3C :: s) := by
  by_cases double : s.head? = some 0x3C
  · obtain ⟨s, rfl⟩ : ∃ t, s = 0x3C :: t := List.head?_eq_some_iff.mp double
    rcases inner s (by simp) .entries [] with ⟨all, rest, whole⟩ | ⟨left, broken⟩
    · exact .inl ⟨_, rest, .dictionary whole⟩
    · exact .inr ⟨_, .dictionary broken⟩
  by_cases closed : 0x3E ∈ s
  · obtain ⟨digits, rest, rfl, first⟩ := List.eq_append_cons_of_mem closed
    have single : digits.head? ≠ some 0x3C := by
      intro starts
      obtain ⟨digits, rfl⟩ := List.head?_eq_some_iff.mp starts
      exact double rfl
    exact .inl ⟨_, rest, .hexadecimal single first⟩
  · exact .inr ⟨_, .hexadecimal double closed⟩

/-- The cases are the marks that open something, then those that open nothing. -/
theorem settledValue_cons (blank : isBlank b = false) (comment : b ≠ 0x25)
    (inner : ∀ t, t.length < (b :: s).length → SettledLoop K t) : SettledValue K (b :: s) := by
  by_cases literal : b = 0x28
  · subst literal
    exact settledValue_literal s
  by_cases bracket : b = 0x3C
  · subst bracket
    exact settledValue_bracket fun t shorter => inner t (Nat.lt_succ_of_lt shorter)
  by_cases array : b = 0x5B
  · subst array
    rcases inner s (by simp) .items [] with ⟨all, rest, whole⟩ | ⟨left, broken⟩
    · exact .inl ⟨_, rest, .array whole⟩
    · exact .inr ⟨_, .array broken⟩
  by_cases name : b = 0x2F
  · subst name
    exact .inl ⟨_, _, .name s⟩
  by_cases number : startsNumber b
  · exact .inl ⟨_, _, .number s number⟩
  by_cases regular : isRegular b
  · exact .inl ⟨_, _, .word s regular (by simpa using number)⟩
  have stray : isStray b := by
    simp only [isRegular, isDelimiter, blank, isStray, beq_iff_eq, Bool.or_eq_true,
      Bool.and_eq_true, Bool.not_eq_true', Bool.or_eq_false_iff, beq_eq_false_iff_ne] at regular ⊢
    tauto
  exact .inl ⟨_, _, .stray s stray⟩

theorem settledLoop_of_values
    (values : ∀ b rest, isBlank b = false → b ≠ 0x25 → (b :: rest).length ≤ s.length →
      SettledValue K (b :: rest))
    (inner : ∀ t, t.length < s.length → SettledLoop K t) : SettledLoop K s := by
  intro l before
  cases meets : l.meets s with
  | nothing => exact .inr ⟨_, .ends meets⟩
  | closing rest => exact .inl ⟨_, rest, .closed meets⟩
  | passing t =>
      have shorter := (Loop.ahead_of_meets meets).shorter
      rcases inner t shorter l before with ⟨all, rest, whole⟩ | ⟨left, broken⟩
      · exact .inl ⟨all, rest, .passed meets whole⟩
      · exact .inr ⟨left, .passed meets broken⟩
  | slot key t =>
      obtain ⟨u, suffix, something, found⟩ := Loop.place_of_meets meets
      obtain ⟨b, t, rfl⟩ := List.exists_cons_of_ne_nil something
      obtain ⟨blank, comment⟩ := visible_of_skipBlank found
      have within : (b :: t).length ≤ s.length :=
        (found ▸ skipBlank_suffix u).length_le.trans suffix.length_le
      rcases values b t blank comment within with ⟨value, u, whole⟩ | ⟨left, broken⟩
      · have shorter := Nat.lt_of_lt_of_le whole.ahead.shorter within
        rcases inner u shorter l (l.add before key value) with ⟨all, rest, whole'⟩ | ⟨left, broken⟩
        · exact .inl ⟨all, rest, .filled meets whole whole'⟩
        · exact .inr ⟨left, .filled meets whole broken⟩
      · exact .inr ⟨left, .inside meets broken⟩

theorem settledLoop (s : Bytes) : SettledLoop K s := by
  induction size : s.length using Nat.strongRecOn generalizing s with
  | ind n ih =>
  have inner (t : Bytes) (shorter : t.length < s.length) : SettledLoop K t :=
    ih _ (size ▸ shorter) t rfl
  refine settledLoop_of_values (fun b rest blank comment within => ?_) inner
  exact settledValue_cons blank comment fun t shorter => inner t (Nat.lt_of_lt_of_le shorter within)

theorem settledValue (blank : isBlank b = false) (comment : b ≠ 0x25) (s : Bytes) :
    SettledValue K (b :: s) :=
  settledValue_cons blank comment fun t _ => settledLoop t

/-! ### Not both, and what is not closed only in one way -/

/-- A loop that is closed does what it meets. -/
theorem Whole.loop_cases {l : Loop} {before all : l.Data K}
    (whole : Whole K (.loop l before all) s rest) :
    match l.meets s with
    | .nothing => False
    | .closing after => after = rest
    | .passing t => Whole K (.loop l before all) t rest
    | .slot key t => ∃ value u, Whole K (.value value) t u ∧
        Whole K (.loop l (l.add before key value) all) u rest := by
  cases whole with
  | closed meets => rw [meets]
  | passed meets whole =>
      rw [meets]
      exact whole
  | filled meets whole later =>
      rw [meets]
      exact ⟨_, _, whole, later⟩

theorem Broken.loop_cases {l : Loop} {left : List Opening} (broken : Broken K (some l) s left) :
    match l.meets s with
    | .nothing => left = []
    | .closing _ => False
    | .passing t => Broken K (some l) t left
    | .slot _ t => Broken K none t left ∨
        ∃ value u, Whole K (.value value) t u ∧ Broken K (some l) u left := by
  cases broken with
  | ends meets => rw [meets]
  | passed meets broken =>
      rw [meets]
      exact broken
  | inside meets broken =>
      rw [meets]
      exact .inl broken
  | filled meets whole broken =>
      rw [meets]
      exact .inr ⟨_, _, whole, broken⟩

variable (K) in
/-- No value is closed in the bytes, or no loop. -/
def NeverClosed : Option Loop → Bytes → Prop
  | none, s => ∀ value rest, ¬Whole K (.value value) s rest
  | some l, s => ∀ before all rest, ¬Whole K (.loop l before all) s rest

theorem Whole.rest_unique {value value' : Option (Operand K)} {u u' : Bytes}
    (whole : Whole K (.value value) s u) (whole' : Whole K (.value value') s u') : u' = u := by
  cases whole.read_value.symm.trans whole'.read_value
  rfl

/-- What the bytes break off is not closed in them. -/
theorem Broken.neverClosed {place : Option Loop} {left : List Opening}
    (broken : Broken K place s left) : NeverClosed K place s := by
  induction broken with
  | literal never =>
      intro value rest whole
      cases whole with
      | literal body => exact never _ _ _ body rfl
      | number _ kind | word _ kind | stray _ kind => cases kind
  | hexadecimal single never =>
      intro value rest whole
      cases whole with
      | hexadecimal => simp at never
      | dictionary => exact single rfl
      | number _ kind | word _ kind | stray _ kind => cases kind
  | array _ ih =>
      intro value rest whole
      cases whole with
      | array whole => exact ih _ _ _ whole
      | number _ kind | word _ kind | stray _ kind => cases kind
  | @dictionary s inner _ ih =>
      intro value rest whole
      generalize shape : 0x3C :: 0x3C :: s = s' at whole
      cases whole with
      | dictionary whole =>
          cases shape
          exact ih _ _ _ whole
      | @hexadecimal digits _ single =>
          cases digits with
          | nil => cases shape
          | cons d digits =>
              cases shape
              exact single rfl
      | literal | array | name => cases shape
      | number _ kind | word _ kind | stray _ kind =>
          cases shape
          cases kind
  | ends meets =>
      intro before all rest whole
      have cases := whole.loop_cases
      rwa [meets] at cases
  | passed meets _ ih =>
      intro before all rest whole
      have cases := whole.loop_cases
      rw [meets] at cases
      exact ih _ _ _ cases
  | inside meets _ ih =>
      intro before all rest whole
      have cases := whole.loop_cases
      rw [meets] at cases
      obtain ⟨value, u, whole, -⟩ := cases
      exact ih _ _ whole
  | filled meets whole _ ih =>
      intro before all rest whole'
      have cases := whole'.loop_cases
      rw [meets] at cases
      obtain ⟨value, u, value_whole, later⟩ := cases
      obtain rfl := whole.rest_unique value_whole
      exact ih _ _ _ later

theorem Broken.unique {place : Option Loop} {left left' : List Opening}
    (broken : Broken K place s left) (broken' : Broken K place s left') : left' = left := by
  induction broken generalizing left' with
  | literal =>
      cases broken'
      rfl
  | hexadecimal single =>
      cases broken' with
      | hexadecimal => rfl
      | dictionary => exact absurd rfl single
  | array _ ih =>
      cases broken' with
      | array broken' => rw [ih broken']
  | dictionary _ ih =>
      cases broken' with
      | hexadecimal single => exact absurd rfl single
      | dictionary broken' => rw [ih broken']
  | ends meets =>
      have cases := broken'.loop_cases
      rwa [meets] at cases
  | passed meets _ ih =>
      have cases := broken'.loop_cases
      rw [meets] at cases
      exact ih cases
  | inside meets broken ih =>
      have cases := broken'.loop_cases
      rw [meets] at cases
      rcases cases with broken' | ⟨value, u, whole, -⟩
      · exact ih broken'
      · exact absurd whole (broken.neverClosed _ _)
  | filled meets whole _ ih =>
      have cases := broken'.loop_cases
      rw [meets] at cases
      rcases cases with broken' | ⟨value, u, whole', broken'⟩
      · exact absurd whole (broken'.neverClosed _ _)
      · obtain rfl := whole.rest_unique whole'
        exact ih broken'

/-! ### Whole content -/

theorem Whole.suffix_of_parameters {d : Dictionary K} {afterId : Bytes}
    (whole : Whole K (.loop .parameters [] d) s afterId) : afterId <:+ s := by
  have read : imageParameters 0 [] s = .ok (d, afterId) := whole.read_loop 0
  have stops := imageParameters_stops (K := K) 0 [] s
  rwa [read] at stops

theorem imageData_suffix (afterId : Bytes) : imageData afterId <:+ afterId := by
  unfold imageData
  split
  · split
    · exact List.suffix_cons _ _
    · exact List.suffix_rfl
  · exact List.suffix_rfl

/-- What follows an image stands at the end of what its parameters start. -/
theorem Whole.suffix_of_mark {d : Dictionary K} {afterId before rest : Bytes}
    (whole : Whole K (.loop .parameters [] d) s afterId)
    (mark : FirstMark EndMark (searched d (imageData afterId)) before rest) : rest <:+ s := by
  have after_mark : rest <:+ searched d (imageData afterId) :=
    ⟨before ++ [0x45, 0x49], by simp [mark.shape]⟩
  have data : searched d (imageData afterId) <:+ afterId :=
    (List.drop_suffix _ _).trans (imageData_suffix afterId)
  exact after_mark.trans (data.trans whole.suffix_of_parameters)

/-- What stands at a place between tokens stands in the bytes, behind a mark where there is one. -/
def Place.Within (s : Bytes) : Place → Prop
  | .nothing => True
  | .stray rest => Ahead s rest
  | .keyword _ rest => Ahead s rest
  | .image startLeft rest => startLeft ≤ s.length ∧ Ahead s rest
  | .value t => t <:+ s ∧ ∃ b rest, t = b :: rest ∧ isBlank b = false ∧ b ≠ 0x25

theorem Place.within_of (s : Bytes) : (Place.of s).Within s := by
  unfold Place.of
  split
  · trivial
  next b rest found =>
    have ahead := ahead_of_skipBlank found
    have later := ahead.trans_suffix (afterWord_suffix rest)
    split
    · exact ahead
    split
    · split
      · exact ⟨ahead.shorter, later⟩
      · exact later
    · exact ⟨found ▸ skipBlank_suffix s, b, rest, rfl, visible_of_skipBlank found⟩

/-- Whatever the bytes are, there is a list of what they leave open. -/
theorem exists_unclosed (s : Bytes) : ∃ left, Unclosed K s left := by
  induction size : s.length using Nat.strongRecOn generalizing s with
  | ind n ih =>
  have later {rest : Bytes} (ahead : Ahead s rest) : ∃ left, Unclosed K rest left :=
    ih _ (size ▸ ahead.shorter) rest rfl
  have within := Place.within_of s
  cases place : Place.of s with
  | nothing => exact ⟨[], .nothing place⟩
  | stray rest =>
      rw [place] at within
      obtain ⟨left, unclosed⟩ := later within
      exact ⟨left, .stray place unclosed⟩
  | keyword text rest =>
      rw [place] at within
      obtain ⟨left, unclosed⟩ := later within
      exact ⟨left, .keyword place unclosed⟩
  | value t =>
      rw [place] at within
      obtain ⟨suffix, b, t, rfl, blank, comment⟩ := within
      rcases settledValue (K := K) blank comment t with ⟨value, rest, whole⟩ | ⟨left, broken⟩
      · obtain ⟨left, unclosed⟩ := later (whole.ahead.of_suffix suffix)
        exact ⟨left, .value place whole unclosed⟩
      · exact ⟨left, .insideValue place broken⟩
  | image startLeft t =>
      rw [place] at within
      rcases settledLoop (K := K) t .parameters [] with ⟨d, afterId, whole⟩ | ⟨inner, broken⟩
      · have finds := endMarker?_finds (searched d (imageData afterId))
        cases found : endMarker? true (searched d (imageData afterId)) with
        | none =>
            rw [found] at finds
            exact ⟨_, .insideData place whole finds⟩
        | some n =>
            rw [found] at finds
            obtain ⟨before, rest, -, mark⟩ := finds
            obtain ⟨left, unclosed⟩ := later (within.2.trans_suffix (whole.suffix_of_mark mark))
            exact ⟨left, .image place whole mark unclosed⟩
      · exact ⟨_, .insideParameters place broken⟩

/-- What content leaves open follows from what stands first in it. -/
theorem Unclosed.place_cases {left : List Opening} (unclosed : Unclosed K s left) :
    match Place.of s with
    | .nothing => left = []
    | .stray rest => Unclosed K rest left
    | .keyword _ rest => Unclosed K rest left
    | .value t => (∃ value rest, Whole K (.value value) t rest ∧ Unclosed K rest left) ∨
        Broken K none t left
    | .image startLeft t =>
      (∃ inner, Broken K (some .parameters) t inner ∧ left = inner ++ [⟨.inlineImage, startLeft⟩]) ∨
      ∃ d afterId, Whole K (.loop .parameters [] d) t afterId ∧
        ((∃ before rest, FirstMark EndMark (searched d (imageData afterId)) before rest ∧
          Unclosed K rest left) ∨
        (∀ before after, searched d (imageData afterId) = before ++ 0x45 :: 0x49 :: after →
          ¬EndMark before after) ∧ left = [⟨.inlineImage, startLeft⟩]) := by
  cases unclosed with
  | nothing place => rw [place]
  | stray place unclosed | keyword place unclosed =>
      rw [place]
      exact unclosed
  | value place whole unclosed =>
      rw [place]
      exact .inl ⟨_, _, whole, unclosed⟩
  | insideValue place broken =>
      rw [place]
      exact .inr broken
  | image place whole mark unclosed =>
      rw [place]
      exact .inr ⟨_, _, whole, .inl ⟨_, _, mark, unclosed⟩⟩
  | insideParameters place broken =>
      rw [place]
      exact .inl ⟨_, broken, rfl⟩
  | insideData place whole never =>
      rw [place]
      exact .inr ⟨_, _, whole, .inr ⟨never, rfl⟩⟩

theorem Whole.parameters_unique {d d' : Dictionary K} {afterId afterId' : Bytes}
    (whole : Whole K (.loop .parameters [] d) s afterId)
    (whole' : Whole K (.loop .parameters [] d') s afterId') : d' = d ∧ afterId' = afterId := by
  cases (whole.read_loop 0).symm.trans (whole'.read_loop 0)
  exact ⟨rfl, rfl⟩

theorem Unclosed.unique {left left' : List Opening} (unclosed : Unclosed K s left)
    (unclosed' : Unclosed K s left') : left' = left := by
  have cases := unclosed'.place_cases
  induction unclosed generalizing left' with
  | nothing place =>
      rw [place] at cases
      exact cases
  | stray place _ ih | keyword place _ ih =>
      rw [place] at cases
      exact ih cases (place_cases cases)
  | value place whole _ ih =>
      rw [place] at cases
      rcases cases with ⟨value, rest, whole', unclosed'⟩ | broken
      · obtain rfl := whole.rest_unique whole'
        exact ih unclosed' unclosed'.place_cases
      · exact absurd whole (broken.neverClosed _ _)
  | insideValue place broken =>
      rw [place] at cases
      rcases cases with ⟨value, rest, whole, -⟩ | broken'
      · exact absurd whole (broken.neverClosed _ _)
      · exact broken.unique broken'
  | image place whole mark _ ih =>
      rw [place] at cases
      rcases cases with ⟨inner, broken, -⟩ | ⟨d, afterId, whole', cases⟩
      · exact absurd whole (broken.neverClosed _ _ _)
      obtain ⟨rfl, rfl⟩ := whole.parameters_unique whole'
      rcases cases with ⟨before, rest, mark', unclosed'⟩ | ⟨never, -⟩
      · obtain ⟨-, rfl⟩ := mark.unique mark'
        exact ih unclosed' unclosed'.place_cases
      · exact absurd mark.accepted (never _ _ mark.shape)
  | insideParameters place broken =>
      rw [place] at cases
      rcases cases with ⟨inner, broken', rfl⟩ | ⟨d, afterId, whole, -⟩
      · rw [broken.unique broken']
      · exact absurd whole (broken.neverClosed _ _ _)
  | insideData place whole never =>
      rw [place] at cases
      rcases cases with ⟨inner, broken, -⟩ | ⟨d, afterId, whole', cases⟩
      · exact absurd whole (broken.neverClosed _ _ _)
      obtain ⟨rfl, rfl⟩ := whole.parameters_unique whole'
      rcases cases with ⟨before, rest, mark, -⟩ | ⟨-, rfl⟩
      · exact absurd mark.accepted (never _ _ mark.shape)
      · rfl

/-! ### Where enclosures start -/

theorem Loop.length_place_le {l : Loop} {key : Option String} (meets : l.meets s = .slot key t) :
    t.length ≤ s.length := by
  obtain ⟨u, suffix, -, rfl⟩ := place_of_meets meets
  exact (skipBlank_suffix u).length_le.trans suffix.length_le

theorem Broken.startLeft_le {place : Option Loop} {left : List Opening}
    (broken : Broken K place s left) : ∀ o ∈ left, o.startLeft ≤ s.length := by
  induction broken with
  | literal | hexadecimal =>
      intro o among
      rw [List.mem_singleton.mp among]
      exact Nat.le_refl _
  | array _ ih =>
      intro o among
      rcases List.mem_append.mp among with inner | outer
      · exact Nat.le_succ_of_le (ih o inner)
      · rw [List.mem_singleton.mp outer]
        exact Nat.le_refl _
  | dictionary _ ih =>
      intro o among
      rcases List.mem_append.mp among with inner | outer
      · exact Nat.le_succ_of_le (Nat.le_succ_of_le (ih o inner))
      · rw [List.mem_singleton.mp outer]
        exact Nat.le_refl _
  | ends => simp
  | passed meets _ ih =>
      intro o among
      exact (ih o among).trans (Loop.ahead_of_meets meets).suffix.length_le
  | inside meets _ ih =>
      intro o among
      exact (ih o among).trans (Loop.length_place_le meets)
  | filled meets whole _ ih =>
      intro o among
      exact (ih o among).trans (whole.suffix.length_le.trans (Loop.length_place_le meets))

theorem Unclosed.startLeft_le {left : List Opening} (unclosed : Unclosed K s left) :
    ∀ o ∈ left, o.startLeft ≤ s.length := by
  have within {s : Bytes} {place : Place} (found : Place.of s = place) : place.Within s :=
    found ▸ Place.within_of s
  induction unclosed with
  | nothing => simp
  | stray place _ ih | keyword place _ ih =>
      intro o among
      have ahead : Ahead _ _ := within place
      exact (ih o among).trans ahead.suffix.length_le
  | value place whole _ ih =>
      intro o among
      exact (ih o among).trans (whole.suffix.trans (within place).1).length_le
  | insideValue place broken =>
      intro o among
      exact (broken.startLeft_le o among).trans (within place).1.length_le
  | image place whole mark _ ih =>
      intro o among
      exact (ih o among).trans ((whole.suffix_of_mark mark).trans (within place).2.suffix).length_le
  | insideParameters place broken =>
      intro o among
      rcases List.mem_append.mp among with inner | outer
      · exact (broken.startLeft_le o inner).trans (within place).2.suffix.length_le
      · rw [List.mem_singleton.mp outer]
        exact (within place).1
  | insideData place =>
      intro o among
      rw [List.mem_singleton.mp among]
      exact (within place).1

end PdfContent.Content
