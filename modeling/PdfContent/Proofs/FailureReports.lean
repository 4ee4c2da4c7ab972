import PdfContent.Proofs.Faults
import PdfContent.Proofs.TextObjects

/-!
# Failures of operators are reported once, where they happen

Depth, operator index and the number of compatibility sections are single numbers of the run, shared
by all streams in it. `Accounted` is a grammar of logs that keeps its own count for each stream: an
operator's index is its place among the operators of the stream's content, and compatibility
sections are counted over the operators before it. What the marks and warnings say has to agree with
that, whatever nested streams have been run in between.

In the grammar each operator that fails is followed by one warning about that, with the exceptions
that there are. While it is carried out nothing like this warning is told, by itself or by a nested
stream; so there is exactly one.
-/

namespace PdfContent

variable {K σ : Type}

/-- The place of the operator that is being carried out, and the number of compatibility sections. -/
structure RunState.At (s : RunState K σ) (place : Place) (sections : Nat) : Prop where
  place : s.place = place
  sections : s.compatibility = sections

/-- How many compatibility sections are open after an operator. -/
def sectionsAfter (sections : Nat) (call : Call K) : Nat :=
  if call.operator.keyword = "BX" then sections + 1
  else if call.operator.keyword = "EX" then sections - 1
  else sections

/-- What follows in the log on what an operator tells: nothing if it succeeds or passes on a fault,
nothing if it is unknown and stands in a compatibility section, and else one warning, of which there
was none before. -/
inductive Reported (table : ContentTable K σ) (place : Place) (sections : Nat) (call : Call K)
    (told : List (Entry K σ)) : Except OperatorError Unit → List (Entry K σ) → Prop
  | done : Reported table place sections call told (.ok ()) []
  | fault {cause : ContentError} : Reported table place sections call told (.error (.fatal cause)) []
  | excused : table.find? call.operator.keyword = none → 0 < sections → told = [] →
      Reported table place sections call told (.error (.unknownOperator call.operator.keyword)) []
  | warned {e : OperatorError} : (∀ cause, e ≠ .fatal cause) →
      (table.find? call.operator.keyword = none → sections = 0) →
      Warning.ofError e call.operator.keyword place.index place.depth ∉ Entry.warnings told →
      Reported table place sections call told (.error e)
        [.event (.warning (Warning.ofError e call.operator.keyword place.index place.depth))]

/-- What a part of a log comes from: the operators of a stream that are left to be carried out, with
their places, after some compatibility sections were begun; or one operator at its place. -/
inductive Stretch (K : Type)
  | stream (sections : Nat) (program : List (Call K × Nat))
  | operator (index : Nat)

/-- The log of a stretch that lies within a number of streams. -/
inductive Accounted [Scalar K] (table : ContentTable K σ) :
    (depth : Nat) → Stretch K → List (Entry K σ) → Prop
  | ended {depth sections} : Accounted table depth (.stream sections []) []
  /-- An operator after which the stream goes on. -/
  | next {depth index sections call program s t told result report rest} :
      RunState.At s ⟨depth, index⟩ sections → Accounted table depth (.operator index) told →
      Reported table ⟨depth, index⟩ sections call told result report →
      RunState.At t ⟨depth, index⟩ (sectionsAfter sections call) → t.ending? result = none →
      Accounted table depth (.stream (sectionsAfter sections call) program) rest →
      Accounted table depth (.stream sections ((call, index) :: program))
        (.started call s :: told ++ report ++ .finished call result t :: rest)
  /-- An operator by which the stream ends. -/
  | last {depth index sections call program s t told result report} :
      RunState.At s ⟨depth, index⟩ sections → Accounted table depth (.operator index) told →
      Reported table ⟨depth, index⟩ sections call told result report →
      RunState.At t ⟨depth, index⟩ (sectionsAfter sections call) → t.ending? result ≠ none →
      Accounted table depth (.stream sections ((call, index) :: program))
        (.started call s :: told ++ report ++ [.finished call result t])
  | silent {depth index} : Accounted table depth (.operator index) []
  /-- Warnings that an operator makes itself come with its place. -/
  | tells {depth index log e} : Accounted table depth (.operator index) log →
      (∀ w, e = Event.warning w → w.operatorIndex = some index ∧ w.depth = depth) →
      Accounted table depth (.operator index) (log ++ [.event e])
  /-- A nested stream, which counts from the beginning. -/
  | nested {depth index log content s inner result t} : Accounted table depth (.operator index) log →
      Accounted table (depth + 1) (.stream 0 (Content.program content)) inner →
      Accounted table depth (.operator index)
        (log ++ .opened content s :: (inner ++ [.closed result t]))

namespace Entry

@[simp] theorem warnings_append (a b : List (Entry K σ)) :
    warnings (a ++ b) = warnings a ++ warnings b :=
  List.filterMap_append

end Entry

variable [Scalar K] {table : ContentTable K σ} {depth : Nat}

omit [Scalar K] in
theorem Reported.le_depth {place : Place} {sections : Nat} {call : Call K}
    {told report : List (Entry K σ)} {result : Except OperatorError Unit}
    (reported : Reported table place sections call told result report) :
    ∀ w ∈ Entry.warnings report, place.depth ≤ w.depth := by
  cases reported with
  | warned =>
      intro w mem
      obtain rfl := List.mem_singleton.mp mem
      exact Nat.le_refl _
  | _ => simp [Entry.warnings]

/-- What is told within a number of streams is never warned about as if it were further out. -/
theorem Accounted.le_depth {stretch : Stretch K} {log : List (Entry K σ)}
    (accounted : Accounted table depth stretch log) : ∀ w ∈ Entry.warnings log, depth ≤ w.depth := by
  induction accounted with
  | ended => simp [Entry.warnings]
  | @next _ _ _ call _ s t told result report rest _ _ reported _ _ _ ih ih' =>
      have shape :
          Entry.warnings (.started call s :: told ++ report ++ .finished call result t :: rest)
          = Entry.warnings told ++ Entry.warnings report ++ Entry.warnings rest := by
        simp [Entry.warnings]
      rw [shape]
      simp only [List.forall_mem_append]
      exact ⟨⟨ih, reported.le_depth⟩, ih'⟩
  | @last _ _ _ call _ s t told result report _ _ reported _ _ ih =>
      have shape : Entry.warnings (.started call s :: told ++ report ++ [.finished call result t])
          = Entry.warnings told ++ Entry.warnings report := by
        simp [Entry.warnings]
      rw [shape]
      simp only [List.forall_mem_append]
      exact ⟨ih, reported.le_depth⟩
  | silent => simp [Entry.warnings]
  | @tells _ _ log e _ own ih =>
      rw [Entry.warnings_append, List.forall_mem_append]
      refine ⟨ih, ?_⟩
      cases e with
      | warning w =>
          intro w' mem
          obtain rfl := List.mem_singleton.mp mem
          exact Nat.le_of_eq (own w' rfl).2.symm
      | _ => simp [Entry.warnings]
  | @nested depth _ log content s inner result t _ _ ih ih' =>
      have shape : Entry.warnings (log ++ .opened content s :: (inner ++ [.closed result t]))
          = Entry.warnings log ++ Entry.warnings inner := by
        simp [Entry.warnings]
      rw [shape, List.forall_mem_append]
      exact ⟨ih, fun w mem => Nat.le_of_succ_le (ih' w mem)⟩

/-- Nested streams that are run from a depth account for their failures, one level deeper. -/
def NestedRun.Accounts (nested : NestedRun K σ) (table : ContentTable K σ) (depth : Nat) : Prop :=
  ∀ content scope setup s, s.depth = depth → (nested content scope setup s).log = [] ∨
    ∃ inner start result t,
      Accounted table (depth + 1) (.stream 0 (Content.program content)) inner ∧
        (nested content scope setup s).log =
          .opened content start :: (inner ++ [.closed result t])

/-- What holds while an operator is carried out: the number of compatibility sections is as before
it, and what it has told so far are remarks and warnings of nested streams. -/
structure Accounting (table : ContentTable K σ) (place : Place) (sections : Nat) (remarks : Bool)
    (c : Context K σ) (log : List (Entry K σ)) : Prop where
  sections : c.compatibility = sections
  accounted : Accounted table place.depth (.operator place.index) log
  warnings : ∀ w ∈ Entry.warnings log, remarks = true ∧ IsRemark place w ∨ place.depth < w.depth

theorem keeps_accounting {nested : NestedRun K σ} (never : nested.NeverRejects) (place : Place)
    (accounts : nested.Accounts table place.depth) (sections : Nat) (remarks : Bool) :
    (discipline place remarks).Keeps nested place.depth fun opened c log =>
      ∃ o, opened = some o ∧ Accounting table place sections remarks c log where
  change := by
    rintro _ log before after ⟨o, rfl, h⟩ allowed
    exact ⟨o, rfl, { h with sections := allowed.trans h.sections }⟩
  tell := by
    rintro _ log c e ⟨o, rfl, h⟩ allowed
    have quiet (noWarning : ∀ w, e ≠ .warning w) :
        Accounting table place sections remarks c (log ++ [.event e]) := by
      refine ⟨h.sections, h.accounted.tells fun w same => absurd same (noWarning w), ?_⟩
      have none : Entry.warnings [.event e] = [] := by
        cases e <;> first | rfl | exact absurd rfl (noWarning _)
      rw [Entry.warnings_append, none, List.append_nil]
      exact h.warnings
    cases e with
    | warning w =>
        obtain ⟨remarking, remark⟩ := allowed
        refine ⟨o, rfl, h.sections, h.accounted.tells ?_, ?_⟩
        · rintro _ ⟨⟩
          exact remark.place
        · rw [Entry.warnings_append, List.forall_mem_append]
          refine ⟨h.warnings, fun w' mem => .inl ?_⟩
          obtain rfl := List.mem_singleton.mp mem
          exact ⟨remarking, remark⟩
    | beginText => exact ⟨true, rfl, quiet fun _ => nofun⟩
    | endText => exact ⟨false, rfl, quiet fun _ => nofun⟩
    | _ => exact ⟨o, rfl, quiet fun _ => nofun⟩
  nest := by
    rintro _ log content scope setup s ⟨o, rfl, h⟩ level _
    refine ⟨o, answered_discipline (never content scope setup s), ?_⟩
    rcases accounts content scope setup s level with none | ⟨inner, start, result, t, within, shape⟩
    · rwa [none, List.append_nil]
    · rw [shape]
      refine ⟨h.sections, h.accounted.nested within, ?_⟩
      have warnings : Entry.warnings (log ++ .opened content start :: (inner ++ [.closed result t]))
          = Entry.warnings log ++ Entry.warnings inner := by
        simp [Entry.warnings]
      rw [warnings, List.forall_mem_append]
      exact ⟨h.warnings, fun w mem => .inr (within.le_depth w mem)⟩

/-- The report of a failure is none of the warnings that were told before it. -/
theorem Accounting.not_mem {place : Place} {sections : Nat} {remarks : Bool} {c : Context K σ}
    {log : List (Entry K σ)} (h : Accounting table place sections remarks c log) {e : OperatorError}
    (permits : Permits remarks e) (keyword : String) :
    Warning.ofError e keyword place.index place.depth ∉ Entry.warnings log := by
  intro mem
  rcases h.warnings _ mem with ⟨rfl, remark⟩ | deeper
  · exact remark.ne_report permits keyword place.index place.depth rfl
  · exact absurd deeper (Nat.lt_irrefl _)

section Actions

variable {r : RunSettings K σ} {nested : NestedRun K σ}

theorem Orderly.accounting {α : Type} {remarks : Bool} (restores : nested.Restores)
    (never : nested.NeverRejects) {scope : σ} {s : RunState K σ}
    (accounts : nested.Accounts r.table s.depth) {x : Action K σ α}
    (orderly : Orderly remarks (r.environment scope s) s.toContext x) :
    let o := x.run (r.environment scope) nested s
    Accounting r.table s.place s.compatibility remarks o.state.toContext o.log ∧
      ∀ e, o.result = .error e → Permits remarks e := by
  intro o
  have stable (t : RunState K σ) (same : t.place = s.place) :
      r.environment scope t = r.environment scope s := by
    simp only [RunSettings.environment, same]
  have start : Accounting r.table s.place s.compatibility remarks s.toContext [] :=
    ⟨rfl, .silent, by simp [Entry.warnings]⟩
  unfold Orderly at orderly
  obtain ⟨_, ⟨isOpen, rfl, after⟩, _, error⟩ := Action.Obeys.run restores stable
    (keeps_accounting never s.place accounts s.compatibility remarks) ⟨_, rfl, start⟩ orderly
  exact ⟨after, fun e failed => (error e failed).2 rfl⟩

/-- What carrying out an operator leaves behind. An unknown one fails before it has done anything;
the others fail with an error of another kind, and have told nothing that reads like its report. -/
structure Carried (table : ContentTable K σ) (place : Place) (sections : Nat) (call : Call K)
    (o : Outcome OperatorError K σ Unit) : Prop where
  after : o.state.At place (sectionsAfter sections call)
  accounted : Accounted table place.depth (.operator place.index) o.log
  fails : ∀ e, o.result = .error e →
    (table.find? call.operator.keyword = none ∧ o.log = [] ∧ o.state.compatibility = sections ∧
        e = .unknownOperator call.operator.keyword) ∨
      (table.find? call.operator.keyword ≠ none ∧ (∀ keyword, e ≠ .unknownOperator keyword) ∧
        Warning.ofError e call.operator.keyword place.index place.depth ∉ Entry.warnings o.log)

theorem carried_dispatch (standard : Operators.IsStandard r.table) (restores : nested.Restores)
    (never : nested.NeverRejects) (scope : σ) (call : Call K) {s : RunState K σ}
    (accounts : nested.Accounts r.table s.depth) :
    Carried r.table s.place s.compatibility call
      ((r.table.dispatch call).run (r.environment scope) nested s) := by
  by_cases isBX : call.operator.keyword = "BX"
  · rw [Operators.dispatch_beginCompatibility standard isBX]
    refine ⟨⟨rfl, ?_⟩, .silent, nofun⟩
    rw [sectionsAfter, if_pos isBX]
    rfl
  by_cases isEX : call.operator.keyword = "EX"
  · rw [Operators.dispatch_endCompatibility standard isEX]
    refine ⟨⟨rfl, ?_⟩, .silent, nofun⟩
    rw [sectionsAfter, if_neg isBX, if_pos isEX]
    rfl
  have same : sectionsAfter s.compatibility call = s.compatibility := by
    rw [sectionsAfter, if_neg isBX, if_neg isEX]
  cases found : r.table.find? call.operator.keyword with
  | none =>
      rw [Operators.dispatch_of_unknown found]
      refine ⟨⟨rfl, same.symm⟩, .silent, ?_⟩
      rintro _ ⟨⟩
      exact .inl ⟨found, rfl, rfl, rfl⟩
  | some entry =>
      have noSection : call.operator.keyword ∉ ["BX", "EX"] := by simp [isBX, isEX]
      obtain ⟨remarks, suits⟩ := Operators.exists_suits noSection
      obtain ⟨accounting, permits⟩ := (Operators.orderly_dispatch standard
        (r.environment scope s) found suits s.toContext).accounting restores never accounts
      have place := Action.place_run restores (r.environment scope) (r.table.dispatch call) s
      refine ⟨⟨place, accounting.sections.trans same.symm⟩, accounting.accounted, ?_⟩
      intro e failed
      refine .inr ⟨by simp [found], ?_, accounting.not_mem (permits e failed) _⟩
      rintro keyword rfl
      exact permits _ failed

end Actions

/-- With warnings wanted, the stream reports what has been left behind as it should. -/
theorem Carried.reported {r : RunSettings K σ} (wanted : r.options.collectWarnings = true)
    {place : Place} {sections : Nat} {call : Call K} {o : Outcome OperatorError K σ Unit}
    (carried : Carried r.table place sections call o) :
    Reported r.table place sections call o.log o.result (r.report call o.state o.result) := by
  obtain ⟨⟨here, _⟩, _, fails⟩ := carried
  obtain ⟨result, state, log⟩ := o
  obtain rfl : state.place = place := here
  have warned {e : OperatorError} (reports : (state.react e).reports = true) :
      r.report call state (.error e) =
        [.event (.warning (Warning.ofError e call.operator.keyword state.index state.depth))] := by
    simp only [RunSettings.report, reports, wanted, Bool.and_self, if_true]
  cases result with
  | ok _ => exact .done
  | error e =>
      rcases fails e rfl with ⟨unknown, silent, same, rfl⟩ | ⟨known, other, unsaid⟩
      · obtain rfl : log = [] := silent
        obtain rfl : state.compatibility = sections := same
        by_cases excused : 0 < state.compatibility
        · have quiet :
              r.report call state (.error (.unknownOperator call.operator.keyword)) = [] := by
            simp [RunSettings.report, RunState.react, Reaction.reports,
              Context.inCompatibilitySection, excused]
          rw [quiet]
          exact .excused unknown excused rfl
        · rw [warned (by simp [RunState.react, Reaction.reports, Context.inCompatibilitySection,
            excused])]
          exact .warned (by rintro _ ⟨⟩) (fun _ => Nat.eq_zero_of_not_pos excused)
            (by simp [Entry.warnings])
      · have told (noFault : ∀ cause, e ≠ .fatal cause)
            (reports : (state.react e).reports = true) :
            Reported r.table state.place sections call log (.error e)
              (r.report call state (.error e)) := by
          rw [warned reports]
          exact .warned noFault (fun unknown => absurd unknown known) unsaid
        cases e with
        | fatal cause => exact .fault
        | unknownOperator keyword => exact absurd rfl (other keyword)
        | emptyGraphicsStack =>
            refine told (by rintro _ ⟨⟩) ?_
            simp only [RunState.react]
            split <;> rfl
        | _ => exact told (by rintro _ ⟨⟩) rfl

namespace StreamSettings

variable (stream : StreamSettings K σ)

end StreamSettings

namespace RunSettings

variable (r : RunSettings K σ)

end RunSettings

end PdfContent
