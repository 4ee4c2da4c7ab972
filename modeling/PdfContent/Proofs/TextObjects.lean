import PdfContent.Proofs.DisciplinedTables
import PdfContent.Proofs.Rejection

/-!
# Text objects are told in order

A stream shows glyphs and ends text objects only after it has begun one itself. Forms, pattern cells
and glyph procedures begin and end text objects of their own while one of the surrounding stream is
open, and may leave them open; in the log all of this is interleaved.

`Spoken` is a grammar of such logs, built entry by entry as a run adds them. It remembers whether a
text object of the stream is open and lets whole logs of nested streams stand anywhere. What the
device can rely on follows from the grammar alone.
-/

namespace PdfContent

variable {K σ : Type}

namespace Event

/-- The device is told this of an open text object. -/
def IsInText : Event K σ → Prop
  | .endText => True
  | .glyph _ _ => True
  | _ => False

def isBeginText : Event K σ → Bool
  | .beginText => true
  | _ => false

def isEndText : Event K σ → Bool
  | .endText => true
  | _ => false

end Event

namespace Entry

/-- What one stream tells itself in a part of a log that begins within a number of nested streams.
None if the part goes on after the end of that stream, or ends within a nested one. -/
def ownEvents? (inside : Nat) : List (Entry K σ) → Option (List (Event K σ))
  | [] => if inside = 0 then some [] else none
  | x :: log =>
    match x, inside with
    | .opened _ _, inside => ownEvents? (inside + 1) log
    | .closed _ _, 0 => none
    | .closed _ _, inside + 1 => ownEvents? inside log
    | .event e, 0 => (ownEvents? 0 log).map fun own => e :: own
    | _, inside => ownEvents? inside log

/-- The latest thing that the stream at the end of a part of a log has told about text objects is
that it has begun one. -/
def InText (log : List (Entry K σ)) : Prop :=
  ∃ earlier between own, log = earlier ++ .event .beginText :: between ∧
    ownEvents? 0 between = some own ∧ .endText ∉ own

/-- Where a glyph is shown or a text object is ended, the same stream has begun a text object before
and has not ended it since. Of all streams together no more text objects are ended than were begun,
at any time. -/
structure TellsTextInOrder (log : List (Entry K σ)) : Prop where
  preceded : ∀ before e after, log = before ++ .event e :: after → e.IsInText → InText before
  counted : ∀ told, told <+: events log →
    told.countP Event.isEndText ≤ told.countP Event.isBeginText

/-! ### What a stream tells itself -/

/-- Where a part ends in the stream itself, what follows it is told after it. -/
theorem ownEvents?_append {inside : Nat} {log : List (Entry K σ)} {own : List (Event K σ)}
    (told : ownEvents? inside log = some own) (more : List (Entry K σ)) :
    ownEvents? inside (log ++ more) = (ownEvents? 0 more).map fun later => own ++ later := by
  induction log generalizing inside own with
  | nil =>
      cases inside with
      | zero =>
          cases told
          simp
      | succ inside => cases told
  | cons x log ih =>
      cases x with
      | opened content s =>
          have within : ownEvents? (inside + 1) log = some own := told
          exact ih within
      | closed result s =>
          cases inside with
          | zero => cases told
          | succ inside =>
              have after : ownEvents? inside log = some own := told
              exact ih after
      | event e =>
          cases inside with
          | zero =>
              obtain ⟨own', told', rfl⟩ := Option.map_eq_some_iff.mp told
              change (ownEvents? 0 (log ++ more)).map _ = _
              rw [ih told', Option.map_map]
              rfl
          | succ inside =>
              have within : ownEvents? (inside + 1) log = some own := told
              exact ih within
      | started call s => cases inside <;> exact ih told
      | finished call result s => cases inside <;> exact ih told

/-! ### The grammar -/

/-- An entry that says nothing of text objects and nested streams. -/
def IsAside : Entry K σ → Prop
  | .event .beginText => False
  | .event e => ¬e.IsInText
  | .opened _ _ => False
  | .closed _ _ => False
  | _ => True

/-- The log of a stream up to some point, at which a text object of the stream is open or not. -/
inductive Spoken : Bool → List (Entry K σ) → Prop
  | nothing : Spoken false []
  | begins {opened : Bool} {log} : Spoken opened log → Spoken true (log ++ [.event .beginText])
  | ends {log} : Spoken true log → Spoken false (log ++ [.event .endText])
  | shows {log glyph state} : Spoken true log →
      Spoken true (log ++ [.event (.glyph glyph state)])
  | aside {opened : Bool} {log} {x : Entry K σ} : Spoken opened log → x.IsAside →
      Spoken opened (log ++ [x])
  | nested {opened inside : Bool} {log inner content s result t} : Spoken opened log →
      Spoken inside inner →
      Spoken opened (log ++ .opened content s :: (inner ++ [.closed result t]))

/-- From within nested streams nothing is heard of what is deeper. -/
theorem Spoken.ownEvents? {opened : Bool} {log : List (Entry K σ)} (spoken : Spoken opened log)
    (inside : Nat) (more : List (Entry K σ)) :
    Entry.ownEvents? (inside + 1) (log ++ more) = Entry.ownEvents? (inside + 1) more := by
  induction spoken generalizing inside more with
  | nothing => rfl
  | begins _ ih => rw [List.append_assoc, ih]; rfl
  | ends _ ih => rw [List.append_assoc, ih]; rfl
  | shows _ ih => rw [List.append_assoc, ih]; rfl
  | @aside _ _ x _ isAside ih =>
      rw [List.append_assoc, ih]
      cases x <;> first | rfl | exact isAside.elim
  | nested _ _ ih ih' =>
      rw [List.append_assoc, ih, List.cons_append, List.append_assoc]
      exact ih' (inside + 1) _

namespace InText

variable {log : List (Entry K σ)}

theorem begins (log : List (Entry K σ)) : InText (log ++ [.event .beginText]) :=
  ⟨log, [], [], rfl, rfl, by simp⟩

/-- More that the stream tells itself, in which it does not end the text object. -/
theorem append (inText : InText log) {more : List (Entry K σ)} {own : List (Event K σ)}
    (told : ownEvents? 0 more = some own) (continues : .endText ∉ own) :
    InText (log ++ more) := by
  obtain ⟨earlier, between, own', rfl, told', continues'⟩ := inText
  refine ⟨earlier, between ++ more, own' ++ own, by simp, ?_, by simp [continues, continues']⟩
  rw [ownEvents?_append told', told]
  rfl

/-- Something before it. -/
theorem prepend (inText : InText log) (before : List (Entry K σ)) : InText (before ++ log) := by
  obtain ⟨earlier, between, own, rfl, told, continues⟩ := inText
  exact ⟨before ++ earlier, between, own, by simp, told, continues⟩

end InText

/-- In a stream whose text object is open the latest thing told about text objects is its beginning.
-/
theorem Spoken.inText {opened : Bool} {log : List (Entry K σ)} (spoken : Spoken opened log)
    (isOpen : opened = true) : InText log := by
  induction spoken with
  | nothing => cases isOpen
  | begins _ _ => exact .begins _
  | ends _ _ => cases isOpen
  | shows _ ih => exact (ih rfl).append rfl (by simp)
  | @aside _ _ x _ isAside ih =>
      cases x with
      | event e =>
          refine (ih isOpen).append rfl ?_
          rw [List.mem_singleton]
          rintro rfl
          exact isAside trivial
      | started call s => exact (ih isOpen).append rfl (by simp)
      | finished call result s => exact (ih isOpen).append rfl (by simp)
      | opened content s => exact isAside.elim
      | closed result s => exact isAside.elim
  | nested _ inner ih _ =>
      exact (ih isOpen).append (inner.ownEvents? 0 _) List.not_mem_nil

/-! ### What the device can rely on -/

/-- Each event that is told of an open text object comes after its beginning. -/
def Preceded (log : List (Entry K σ)) : Prop :=
  ∀ before e after, log = before ++ .event e :: after → e.IsInText → InText before

/-- What holds up to some point holds of a longer log if it holds of the part that is added. -/
theorem Preceded.append {log more : List (Entry K σ)} (preceded : Preceded log)
    (added : ∀ before e after, more = before ++ .event e :: after → e.IsInText →
      InText (log ++ before)) : Preceded (log ++ more) := by
  intro before e after shape inText
  rcases List.append_eq_append_iff.mp shape with ⟨first, rfl, rest⟩ | ⟨second, rfl, rest⟩
  · exact added first e after rest inText
  · cases second with
    | nil => simpa using added [] e after rest.symm inText
    | cons x second =>
        obtain ⟨rfl, rfl⟩ := List.cons.inj rest
        exact preceded before e second rfl inText

/-- One more entry. -/
theorem Preceded.snoc {log : List (Entry K σ)} {x : Entry K σ} (preceded : Preceded log)
    (added : ∀ e, x = .event e → e.IsInText → InText log) : Preceded (log ++ [x]) := by
  refine preceded.append ?_
  intro before e after shape inText
  cases before with
  | nil => simpa using added e (List.cons.inj shape).1 inText
  | cons _ before => simp at shape

theorem Spoken.preceded {opened : Bool} {log : List (Entry K σ)} (spoken : Spoken opened log) :
    Preceded log := by
  induction spoken with
  | nothing => simp [Preceded]
  | begins _ ih =>
      refine ih.snoc ?_
      rintro _ ⟨⟩ ⟨⟩
  | ends within ih => exact ih.snoc fun _ _ _ => within.inText rfl
  | shows within ih => exact ih.snoc fun _ _ _ => within.inText rfl
  | @aside _ _ x _ isAside ih =>
      refine ih.snoc ?_
      rintro e rfl inText
      cases e <;> first | exact inText.elim | exact (isAside trivial).elim
  | @nested _ _ log inner content s result t _ _ ih ih' =>
      refine ih.append ?_
      intro before e after shape inText
      cases before with
      | nil => cases shape
      | cons x before =>
          obtain ⟨rfl, rest⟩ := List.cons.inj shape
          have closed : Preceded (inner ++ [.closed result t]) := by
            refine ih'.snoc ?_
            rintro _ ⟨⟩
          have here := closed before e after rest inText
          exact (here.prepend [.opened content s]).prepend log

/-- At no time more text objects have been ended than begun; in the end there is one less, if the
stream's own is still open. -/
structure Counted (opened : Bool) (told : List (Event K σ)) : Prop where
  always : ∀ before, before <+: told →
    before.countP Event.isEndText ≤ before.countP Event.isBeginText
  inTheEnd : told.countP Event.isEndText + opened.toNat ≤ told.countP Event.isBeginText

namespace Counted

variable {opened opened' : Bool} {told more : List (Event K σ)}

theorem append (counted : Counted opened told)
    (always : ∀ before, before <+: more →
      before.countP Event.isEndText ≤ before.countP Event.isBeginText + opened.toNat)
    (inTheEnd : more.countP Event.isEndText + opened'.toNat ≤
      more.countP Event.isBeginText + opened.toNat) : Counted opened' (told ++ more) := by
  have enough := counted.inTheEnd
  refine ⟨fun before isPrefix => ?_, ?_⟩
  · rcases List.prefix_or_prefix_of_prefix isPrefix (List.prefix_append told more) with
      early | ⟨later, rfl⟩
    · exact counted.always before early
    · have further := always later ((List.prefix_append_right_inj told).mp isPrefix)
      simp only [List.countP_append]
      omega
  · simp only [List.countP_append]
    omega

/-- A step by which no more is ended than is open. -/
theorem step (counted : Counted opened told)
    (few : more.countP Event.isEndText ≤ opened.toNat)
    (inTheEnd : more.countP Event.isEndText + opened'.toNat ≤
      more.countP Event.isBeginText + opened.toNat) : Counted opened' (told ++ more) := by
  refine counted.append (fun before isPrefix => ?_) inTheEnd
  have less := isPrefix.sublist.countP_le (p := Event.isEndText)
  omega

/-- A step that neither begins nor ends a text object. -/
theorem quiet (counted : Counted opened told) (ends : more.countP Event.isEndText = 0) :
    Counted opened (told ++ more) :=
  counted.step (by omega) (by omega)

end Counted

theorem Spoken.counted {opened : Bool} {log : List (Entry K σ)} (spoken : Spoken opened log) :
    Counted opened (events log) := by
  induction spoken with
  | nothing => exact ⟨by simp, Nat.le_refl _⟩
  | @begins opened _ _ ih =>
      rw [events_append]
      exact ih.step (Nat.zero_le _) (Nat.le_add_right ..)
  | ends _ ih =>
      rw [events_append]
      exact ih.step (Nat.le_refl _) (Nat.le_refl _)
  | shows _ ih =>
      rw [events_append]
      exact ih.quiet rfl
  | @aside _ _ x _ isAside ih =>
      rw [events_append]
      refine ih.quiet ?_
      cases x with
      | event e => cases e <;> first | rfl | exact (isAside trivial).elim
      | _ => rfl
  | @nested _ inside log inner content s result t _ _ ih ih' =>
      have same : events (.opened content s :: (inner ++ [.closed result t])) = events inner := by
        change events (inner ++ [.closed result t]) = events inner
        rw [events_append]
        exact List.append_nil _
      rw [events_append, same]
      have balanced := ih'.inTheEnd
      exact ih.append (fun before isPrefix => Nat.le_add_right_of_le (ih'.always before isPrefix))
        (by omega)

theorem Spoken.tellsTextInOrder {opened : Bool} {log : List (Entry K σ)}
    (spoken : Spoken opened log) : TellsTextInOrder log :=
  ⟨spoken.preceded, spoken.counted.always⟩

end Entry

/-! ### Runs -/

open Entry (Spoken)

/-- Nested streams are run so that their logs are in the grammar. -/
def NestedRun.Speaks (nested : NestedRun K σ) : Prop :=
  ∀ content scope setup s, (nested content scope setup s).log = [] ∨
    ∃ opened inner start result t, Spoken opened inner ∧
      (nested content scope setup s).log =
        .opened content start :: (inner ++ [.closed result t])

/-- After what streams do answer the text is watched on. -/
theorem answered_discipline {place : Place} {remarks opened : Bool}
    {answer : Except OperatorError Unit}
    (never : ∀ e, answer = .error e → ¬e.IsRejection) :
    (discipline (K := K) (σ := σ) place remarks).answered (some opened) answer = some opened := by
  cases answer with
  | ok _ => rfl
  | error e => cases e <;> first | rfl | exact absurd trivial (never _ rfl)

theorem keeps_spoken {nested : NestedRun K σ} (never : nested.NeverRejects)
    (speaks : nested.Speaks) (place : Place) (remarks : Bool) (depth : Nat) :
    (discipline place remarks).Keeps nested depth fun opened _ log =>
      ∃ o, opened = some o ∧ Spoken o log where
  change := by
    rintro _ log before after ⟨o, rfl, spoken⟩ _
    exact ⟨o, rfl, spoken⟩
  tell := by
    rintro _ log c e ⟨o, rfl, spoken⟩ allowed
    cases e with
    | beginText => exact ⟨true, rfl, spoken.begins⟩
    | endText =>
        obtain rfl : o = true := allowed
        exact ⟨false, rfl, spoken.ends⟩
    | glyph glyph state =>
        obtain rfl : o = true := allowed
        exact ⟨true, rfl, spoken.shows⟩
    | _ => exact ⟨o, rfl, spoken.aside id⟩
  nest := by
    rintro _ log content scope setup s ⟨o, rfl, spoken⟩ _ _
    refine ⟨o, answered_discipline (never content scope setup s), ?_⟩
    rcases speaks content scope setup s with none | ⟨_, _, _, _, _, inner, shape⟩
    · rwa [none, List.append_nil]
    · rw [shape]
      exact spoken.nested inner

section Actions

variable {r : RunSettings K σ} {nested : NestedRun K σ} {log : List (Entry K σ)}

theorem Orderly.spoken {α : Type} {remarks : Bool} (restores : nested.Restores)
    (never : nested.NeverRejects) (speaks : nested.Speaks) {scope : σ} {s : RunState K σ}
    {x : Action K σ α} (orderly : Orderly remarks (r.environment scope s) s.toContext x)
    (spoken : Spoken s.text.isSome log) :
    let o := x.run (r.environment scope) nested s
    Spoken o.state.text.isSome (log ++ o.log) := by
  intro o
  have stable (t : RunState K σ) (same : t.place = s.place) :
      r.environment scope t = r.environment scope s := by
    simp only [RunSettings.environment, same]
  unfold Orderly at orderly
  obtain ⟨opened, ⟨isOpen, rfl, after⟩, value, error⟩ := Action.Obeys.run restores stable
    (keeps_spoken never speaks _ remarks s.depth) ⟨_, rfl, spoken⟩ orderly
  have settled : Settled (some isOpen) o.state.toContext := by
    cases result : o.result with
    | ok a => exact value a result
    | error e => exact (error e result).1
  rw [settled isOpen rfl]
  exact after

variable [Scalar K] {stream : StreamSettings K σ}

/-- One operator of a built-in table, known or not. -/
theorem spoken_dispatch (standard : Operators.IsStandard r.table) (restores : nested.Restores)
    (never : nested.NeverRejects) (speaks : nested.Speaks) (scope : σ) (call : Call K)
    {s : RunState K σ} (spoken : Spoken s.text.isSome log) :
    let o := (r.table.dispatch call).run (r.environment scope) nested s
    Spoken o.state.text.isSome (log ++ o.log) := by
  by_cases sections : call.operator.keyword ∈ ["BX", "EX"]
  · simp only [List.mem_cons, List.not_mem_nil, or_false] at sections
    rcases sections with keyword | keyword
    · rw [Operators.dispatch_beginCompatibility standard keyword]
      simpa [Operators.beginCompatibility, Action.run_modify] using spoken
    · rw [Operators.dispatch_endCompatibility standard keyword]
      simpa [Operators.endCompatibility, Action.run_modify] using spoken
  obtain ⟨remarks, suits⟩ := Operators.exists_suits sections
  cases found : r.table.find? call.operator.keyword with
  | none =>
      rw [Operators.dispatch_of_unknown found]
      simpa [Action.run_throw] using spoken
  | some e =>
      exact (Operators.orderly_dispatch standard _ found suits _).spoken restores never speaks
        spoken

end Actions

namespace StreamSettings

variable [Scalar K] (stream : StreamSettings K σ) {log : List (Entry K σ)}

theorem spoken_perform (standard : Operators.IsStandard stream.table)
    (restores : stream.nested.Restores) (never : stream.nested.NeverRejects)
    (speaks : stream.nested.Speaks) (index : Nat) (call : Call K) (s : RunState K σ)
    (spoken : Spoken s.text.isSome log) :
    Spoken (stream.perform index call s).state.text.isSome
      (log ++ (stream.perform index call s).log) := by
  let start : RunState K σ := { s with index }
  have started : Spoken start.text.isSome (log ++ [.started call start]) :=
    spoken.aside trivial
  have done := spoken_dispatch (r := stream.toRunSettings) standard restores never speaks
    stream.scope call started
  simp only [perform]
  generalize (stream.table.dispatch call).run (stream.environment stream.scope) stream.nested start
    = o at *
  have reported : Spoken o.state.text.isSome
      (log ++ [.started call start] ++ o.log ++ stream.report call o.state o.result) := by
    cases o.result with
    | ok _ => simpa [RunSettings.report] using done
    | error e =>
        simp only [RunSettings.report]
        split
        · exact done.aside id
        · simpa using done
  simpa using reported.aside (x := .finished call o.result o.state) trivial

theorem spoken_runTokens (standard : Operators.IsStandard stream.table)
    (restores : stream.nested.Restores) (never : stream.nested.NeverRejects)
    (speaks : stream.nested.Speaks) (fault : Option ContentError) (operands : List (Operand K))
    (count : Nat) (s : RunState K σ) (spoken : Spoken s.text.isSome log) (tokens : List (Token K)) :
    ∃ opened, Spoken opened (log ++ (stream.runTokens fault operands count s tokens).log) := by
  induction tokens generalizing operands count s log with
  | nil => cases fault <;> exact ⟨_, by simpa [runTokens] using spoken⟩
  | cons token rest ih =>
      cases token with
      | operand v => exact ih _ _ s spoken
      | operator op =>
          have here := stream.spoken_perform standard restores never speaks count ⟨op, operands⟩ s
            spoken
          simp only [runTokens]
          split
          · exact ⟨_, here⟩
          · obtain ⟨opened, later⟩ := ih [] (count + 1) _ here
            exact ⟨opened, by simpa using later⟩

end StreamSettings

namespace RunSettings

variable [Scalar K] (r : RunSettings K σ) {log : List (Entry K σ)}

/-- Nested streams are in the grammar. The induction is on the number of levels. -/
theorem speaks_nestedRun (standard : Operators.IsStandard r.table) (levels : Nat) :
    (r.nestedRun levels).Speaks := by
  induction levels with
  | zero =>
      intro content scope setup s
      rw [nestedRun]
      split <;> exact .inl rfl
  | succ levels ih =>
      intro content scope setup s
      by_cases limit : r.options.maxDepth ≤ s.depth
      · rw [nestedRun_of_limit _ _ _ _ _ limit]
        exact .inl rfl
      · rw [nestedRun_succ_of_lt _ _ _ _ _ (Nat.not_le.mp limit)]
        let stream : StreamSettings K σ := { r with scope, nested := r.nestedRun levels }
        obtain ⟨opened, inner⟩ := stream.spoken_runTokens standard (restores_nestedRun r levels)
          (r.neverRejects_nestedRun levels) ih
          ((Content.TokenStream.ofBytes (K := K) content).error? content.length) [] 0
          (s.enter setup) .nothing (Content.TokenStream.ofBytes content).values
        exact .inr ⟨opened, _, _, _, _, inner, rfl⟩

/-- The outermost stream goes on from what has been told before it. -/
theorem spoken_run (standard : Operators.IsStandard r.table) (content : Bytes) (scope : σ)
    {s : RunState K σ} (spoken : Spoken s.text.isSome log) :
    ∃ opened, Spoken opened (log ++ (r.run content scope s).log) :=
  (r.outermost scope).spoken_runTokens standard (restores_nestedRun r _)
    (r.neverRejects_nestedRun _) (r.speaks_nestedRun standard _) _ _ _ s spoken _

/-- Whatever the content, the resources and the options are, and whatever the result is: text is told
in order, of a page, of an annotation and of a pattern cell by itself, and of every stream that is
run inside. -/
theorem graphics_tellsTextInOrder (options : Options) (baseMatrix : Matrix K)
    (resolver : Resolver K σ) (scope : σ) :
    let r := graphics options baseMatrix resolver
    (∀ content, Entry.TellsTextInOrder (r.page content scope).log) ∧
      (∀ form rect, Entry.TellsTextInOrder (r.appearance form rect scope).log) ∧
      ∀ name pattern paint, Entry.TellsTextInOrder (r.tilingCell name pattern paint scope).log := by
  intro r
  have standard : Operators.IsStandard r.table := .inl rfl
  have start : Spoken (RunState.initial baseMatrix : RunState K σ).text.isSome
      ([] : List (Entry K σ)) := .nothing
  refine ⟨fun content => ?_, fun form rect => ?_, fun name pattern paint => ?_⟩
  · obtain ⟨opened, spoken⟩ := r.spoken_run standard content scope start
    exact spoken.tellsTextInOrder
  · rw [appearance]
    cases form.appearanceMatrix? rect with
    | none => exact Spoken.nothing.tellsTextInOrder
    | some ctm =>
        let placed : RunState K σ := (RunState.initial r.baseMatrix).updateContext fun c =>
          c.updateState fun s => { s with ctm }.clipToBox form.bbox
        have began := start.aside
          (x := .event (.beginForm (Operators.formEvent "appearance" form ctm))) id
        obtain ⟨opened, spoken⟩ := r.spoken_run standard form.content (form.scope.getD scope)
          (s := placed) began
        exact (spoken.aside (x := .event .endForm) id).tellsTextInOrder
  · have orderly : Orderly true (r.environment scope (.initial baseMatrix))
        (RunState.initial baseMatrix).toContext (Operators.paintCellAlone name pattern paint) :=
      Operators.orderly_paintCellAlone name pattern paint
    exact (orderly.spoken (restores_nestedRun r _) (r.neverRejects_nestedRun _)
      (r.speaks_nestedRun standard _) start).tellsTextInOrder

end RunSettings

end PdfContent
