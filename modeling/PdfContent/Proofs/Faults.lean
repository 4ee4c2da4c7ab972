import PdfContent.Proofs.Supply

/-!
# Only faults of content end a run

An operator that fails does not end the page: whatever the error is, at any depth, the page goes on
with its next operator. What does end it is a fault in content that is being run, and nothing else.
`Faulted` says where in the log such a fault lies. Either it is the stream's own, after all
operators before it; or it has been passed on from a nested stream that one of the operators had
opened, after all operators before that one, and within the nested stream it lies in the same way.
That an operator is carried out means that what the table has for it is run, on the state that the
operators before it have left (`Executes`).

An operator fails with a fault exactly if the latest stream that it has opened ended by that fault,
and it opens none after that. This is what the operators of both tables have in common. From
operators it carries over to the tokens of a stream, and from there, by induction on the levels, to
nested streams. Along the way the resources in use stay those that can be reached from the page, so
that the content of the nested streams is among what the resources supply.
-/

namespace PdfContent

variable {K σ α : Type}

namespace Content

/-- The operators among tokens, each with the operands since the one before it. -/
def calls (operands : List (Operand K)) : List (Token K) → List (Call K)
  | [] => []
  | .operand v :: rest => calls (operands ++ [v]) rest
  | .operator op :: rest => ⟨op, operands⟩ :: calls [] rest

/-- The operators of content, up to its fault if it has one, each with its place. -/
def program [Scalar K] (content : Bytes) : List (Call K × Nat) :=
  (calls [] (TokenStream.ofBytes content).values).zipIdx

/-- The fault that ends content. -/
def fault? (K : Type) [Scalar K] (content : Bytes) : Option ContentError :=
  (TokenStream.ofBytes (K := K) content).error? content.length

end Content

namespace Entry

/-- The operators of streams at a depth that were started, each with its place. -/
def startedAt (depth : Nat) (log : List (Entry K σ)) : List (Call K × Nat) :=
  log.filterMap fun
    | .started call s => if s.depth = depth then some (call, s.index) else none
    | _ => none

/-- The operators of streams at a depth that were carried out or failed, each with its place. -/
def finishedAt (depth : Nat) (log : List (Entry K σ)) : List (Call K × Nat) :=
  log.filterMap fun
    | .finished call _ s => if s.depth = depth then some (call, s.index) else none
    | _ => none

section Marks

variable (depth : Nat) (log log' : List (Entry K σ)) (call : Call K) (s : RunState K σ)

@[simp] theorem startedAt_nil : startedAt depth ([] : List (Entry K σ)) = [] := rfl

@[simp] theorem finishedAt_nil : finishedAt depth ([] : List (Entry K σ)) = [] := rfl

@[simp] theorem startedAt_append :
    startedAt depth (log ++ log') = startedAt depth log ++ startedAt depth log' :=
  List.filterMap_append

@[simp] theorem finishedAt_append :
    finishedAt depth (log ++ log') = finishedAt depth log ++ finishedAt depth log' :=
  List.filterMap_append

@[simp] theorem startedAt_event (e : Event K σ) :
    startedAt depth (.event e :: log) = startedAt depth log :=
  rfl

@[simp] theorem finishedAt_event (e : Event K σ) :
    finishedAt depth (.event e :: log) = finishedAt depth log :=
  rfl

@[simp] theorem startedAt_started : startedAt depth (.started call s :: log) =
    (if s.depth = depth then [(call, s.index)] else []) ++ startedAt depth log := by
  by_cases h : s.depth = depth <;> simp [startedAt, h]

@[simp] theorem finishedAt_started :
    finishedAt depth (.started call s :: log) = finishedAt depth log :=
  rfl

@[simp] theorem startedAt_finished (result : Except OperatorError Unit) :
    startedAt depth (.finished call result s :: log) = startedAt depth log := rfl

@[simp] theorem finishedAt_finished (result : Except OperatorError Unit) :
    finishedAt depth (.finished call result s :: log) =
      (if s.depth = depth then [(call, s.index)] else []) ++ finishedAt depth log := by
  by_cases h : s.depth = depth <;> simp [finishedAt, h]

@[simp] theorem startedAt_opened (content : Bytes) :
    startedAt depth (.opened content s :: log) = startedAt depth log := rfl

@[simp] theorem finishedAt_opened (content : Bytes) :
    finishedAt depth (.opened content s :: log) = finishedAt depth log := rfl

@[simp] theorem startedAt_closed (result : Except ContentError Unit) :
    startedAt depth (.closed result s :: log) = startedAt depth log := rfl

@[simp] theorem finishedAt_closed (result : Except ContentError Unit) :
    finishedAt depth (.closed result s :: log) = finishedAt depth log := rfl

end Marks

/-- No operator of a stream outside of a depth is marked. -/
def Within (depth : Nat) (log : List (Entry K σ)) : Prop :=
  ∀ d < depth, startedAt d log = [] ∧ finishedAt d log = []

theorem Within.append {depth : Nat} {log log' : List (Entry K σ)} (first : Within depth log)
    (second : Within depth log') : Within depth (log ++ log') := by
  intro d hd
  simp [first d hd, second d hd]

/-- All nested streams of a log have content with a property. -/
def Runs (P : Bytes → Prop) (log : List (Entry K σ)) : Prop :=
  ∀ content s, .opened content s ∈ log → P content

theorem Runs.append {P : Bytes → Prop} {log log' : List (Entry K σ)} (first : Runs P log)
    (second : Runs P log') : Runs P (log ++ log') := by
  intro content s mem
  rcases List.mem_append.mp mem with mem | mem
  · exact first content s mem
  · exact second content s mem

end Entry

variable [Scalar K]

namespace StreamSettings

variable (stream : StreamSettings K σ)

omit [Scalar K] in
/-- What an operator at a place comes to by itself: what the table has for it is run on the state. -/
def dispatched (index : Nat) (call : Call K) (s : RunState K σ) : Outcome OperatorError K σ Unit :=
  (stream.table.dispatch call).run (stream.environment stream.scope) stream.nested { s with index }

variable {stream} in
omit [Scalar K] in
theorem perform_of_dispatched {index : Nat} {call : Call K} {s : RunState K σ}
    {o : Outcome OperatorError K σ Unit} (dispatch : stream.dispatched index call s = o) :
    stream.perform index call s =
      { o with
        log := .started call { s with index } :: (o.log ++ stream.report call o.state o.result ++
          [.finished call o.result o.state]) } := by
  subst dispatch
  rfl

/-- Operators are dispatched one after the other, each on the state that the one before it has left,
and none of them ends the stream. The log has what each tells and the warning if it failed, between
two marks. -/
inductive Executes :
    RunState K σ → List (Call K × Nat) → RunState K σ → List (Entry K σ) → Prop
  | nil (s : RunState K σ) : Executes s [] s []
  | cons {s t : RunState K σ} {call : Call K} {index : Nat} {o : Outcome OperatorError K σ Unit}
      {later : List (Call K × Nat)} {log : List (Entry K σ)}
      (dispatch : stream.dispatched index call s = o) (goesOn : o.state.ending? o.result = none)
      (rest : Executes o.state later t log) :
      Executes s ((call, index) :: later) t
        (.started call { s with index } :: (o.log ++ stream.report call o.state o.result ++
          .finished call o.result o.state :: log))

/-- All operators of a program are carried out, and each of them once: the marks at the depth of the
stream are theirs. -/
structure CarriesOut (s : RunState K σ) (program : List (Call K × Nat)) (t : RunState K σ)
    (log : List (Entry K σ)) : Prop where
  executes : stream.Executes s program t log
  started : Entry.startedAt s.depth log = program
  finished : Entry.finishedAt s.depth log = program

variable {stream} {s t : RunState K σ} {call : Call K} {index : Nat}
  {program : List (Call K × Nat)} {log : List (Entry K σ)} {o : Outcome OperatorError K σ Unit}

omit [Scalar K] in
theorem CarriesOut.nil (s : RunState K σ) : stream.CarriesOut s [] s [] := ⟨.nil s, rfl, rfl⟩

omit [Scalar K] in
/-- Another operator before them, which leaves the depth and has marks of its own only. -/
theorem CarriesOut.cons (performed : stream.perform index call s = o)
    (goesOn : o.state.ending? o.result = none) (level : o.state.depth = s.depth)
    (started : Entry.startedAt s.depth o.log = [(call, index)])
    (finished : Entry.finishedAt s.depth o.log = [(call, index)])
    (rest : stream.CarriesOut o.state program t log) :
    stream.CarriesOut s ((call, index) :: program) t (o.log ++ log) := by
  obtain ⟨executes, started', finished'⟩ := rest
  rw [level] at started' finished'
  refine ⟨?_, by simp [started, started'], by simp [finished, finished']⟩
  subst performed
  have executed : stream.Executes s ((call, index) :: program) t _ := .cons rfl goesOn executes
  simpa [perform_of_dispatched (rfl : stream.dispatched index call s = _)] using executed

end StreamSettings

/-- A stream of a run that may have so many levels of streams inside it. -/
def RunSettings.streamAt (r : RunSettings K σ) (levels : Nat) (scope : σ) : StreamSettings K σ :=
  { r with scope, nested := r.nestedRun levels }

@[simp] theorem RunSettings.toRunSettings_streamAt (r : RunSettings K σ) (levels : Nat) (scope : σ) :
    (r.streamAt levels scope).toRunSettings = r := rfl

/-- How a stream, which has a program and perhaps a fault, comes to its end by an error. -/
inductive Faulted (r : RunSettings K σ) : (levels : Nat) → σ → RunState K σ → Option ContentError →
    List (Call K × Nat) → RunState K σ → List (Entry K σ) → ContentError → Prop
  /-- The stream's own fault, after all of its operators. -/
  | own {levels scope s program t log e}
    (carried : (r.streamAt levels scope).CarriesOut s program t log) :
    Faulted r levels scope s (some e) program t log e
  /-- A fault that an operator passes on from a nested stream, after all operators before it. -/
  | passed {levels scope s done t before call index o told content scope' u inner v after e}
    (fault : Option ContentError) (later : List (Call K × Nat))
    (carried : (r.streamAt (levels + 1) scope).CarriesOut s done t before)
    (dispatch : (r.streamAt (levels + 1) scope).dispatched index call t = o)
    (failed : o.result = .error (.fatal e)) (silent : Entry.Within (s.depth + 1) o.log)
    (tells : o.log = told ++ .opened content u :: (inner ++ .closed (.error e) v :: after))
    (level : u.depth = s.depth + 1)
    (within : Faulted r levels scope' u (Content.fault? K content) (Content.program content) v inner
      e) :
    Faulted r (levels + 1) scope s fault (done ++ (call, index) :: later) o.state
      (before ++ .started call { t with index } :: (o.log ++ [.finished call o.result o.state])) e

variable {r : RunSettings K σ} {levels : Nat} {scope : σ}

/-- The error is the fault of the stream's own content or of content that was run inside it. -/
theorem Faulted.exists_fault {s t : RunState K σ} {fault : Option ContentError}
    {program : List (Call K × Nat)} {log : List (Entry K σ)} {e : ContentError}
    (faulted : Faulted r levels scope s fault program t log e) :
    fault = some e ∨ ∃ content s, .opened content s ∈ log ∧ Content.fault? K content = some e := by
  induction faulted with
  | own => exact .inl rfl
  | @passed _ _ _ _ _ _ _ _ _ _ content _ u _ _ _ _ _ _ _ _ _ _ tells _ _ ih =>
      rcases ih with own | ⟨deeper, s', mem, own⟩
      · exact .inr ⟨content, u, by simp [tells], own⟩
      · exact .inr ⟨deeper, s', by simp [tells, mem], own⟩

/-- Another operator before it, which leaves the depth and has marks of its own only. -/
theorem Faulted.cons {s t : RunState K σ} {call : Call K} {index : Nat}
    {fault : Option ContentError} {program : List (Call K × Nat)} {log : List (Entry K σ)}
    {e : ContentError} {o : Outcome OperatorError K σ Unit}
    (performed : (r.streamAt levels scope).perform index call s = o)
    (goesOn : o.state.ending? o.result = none) (level : o.state.depth = s.depth)
    (started : Entry.startedAt s.depth o.log = [(call, index)])
    (finished : Entry.finishedAt s.depth o.log = [(call, index)])
    (faulted : Faulted r levels scope o.state fault program t log e) :
    Faulted r levels scope s fault ((call, index) :: program) t (o.log ++ log) e := by
  cases faulted with
  | own carried => exact .own (carried.cons performed goesOn level started finished)
  | passed _ later carried dispatch failed silent tells level' within =>
      rw [level] at silent level'
      have result := Faulted.passed fault later
        (carried.cons performed goesOn level started finished) dispatch failed silent tells level'
        within
      simpa only [List.append_assoc, List.cons_append] using result

/-- A log in which a nested stream at one more than a depth ended by a fault. -/
def Passes (r : RunSettings K σ) (levels depth : Nat) (log : List (Entry K σ)) (e : ContentError) :
    Prop :=
  ∃ levels', levels = levels' + 1 ∧ ∃ before content scope s inner t after,
    log = before ++ .opened content s :: (inner ++ .closed (.error e) t :: after) ∧
      s.depth = depth + 1 ∧
      Faulted r levels' scope s (Content.fault? K content) (Content.program content) t inner e

theorem Passes.append {depth : Nat} {log : List (Entry K σ)} {e : ContentError}
    (passes : Passes r levels depth log e) (later : List (Entry K σ)) :
    Passes r levels depth (log ++ later) e := by
  obtain ⟨levels', deeper, before, content, scope, s, inner, t, after, rfl, level, within⟩ := passes
  exact ⟨levels', deeper, before, content, scope, s, inner, t, after ++ later, by simp, level, within⟩

theorem Passes.prepend {depth : Nat} {log : List (Entry K σ)} {e : ContentError}
    (passes : Passes r levels depth log e) (earlier : List (Entry K σ)) :
    Passes r levels depth (earlier ++ log) e := by
  obtain ⟨levels', deeper, before, content, scope, s, inner, t, after, rfl, level, within⟩ := passes
  exact ⟨levels', deeper, earlier ++ before, content, scope, s, inner, t, after, by simp, level,
    within⟩

omit [Scalar K] in
/-- A fault is not reported by the operator that passes it on. -/
theorem RunSettings.report_fatal (call : Call K) (s : RunState K σ) (e : ContentError) :
    r.report call s (.error (.fatal e)) = [] := rfl

/-- An operator that fails by a fault has it from a nested stream. -/
theorem Passes.faulted {s : RunState K σ} {call : Call K} {index : Nat} {e : ContentError}
    {o : Outcome OperatorError K σ Unit}
    (dispatch : (r.streamAt levels scope).dispatched index call s = o)
    (failed : o.result = .error (.fatal e)) (silent : Entry.Within (s.depth + 1) o.log)
    (passes : Passes r levels s.depth o.log e) (fault : Option ContentError)
    (later : List (Call K × Nat)) :
    Faulted r levels scope s fault ((call, index) :: later) o.state
      ((r.streamAt levels scope).perform index call s).log e := by
  obtain ⟨levels, rfl, told, content, scope', u, inner, v, after, tells, level, within⟩ := passes
  have result := Faulted.passed fault later (.nil s) dispatch failed silent tells level
    within
  rw [StreamSettings.perform_of_dispatched dispatch]
  rw [failed] at result ⊢
  rwa [RunSettings.report_fatal, List.append_nil]

/-- What a nested stream at one more than a depth, with supplied content, leaves in the log. -/
structure Answers (r : RunSettings K σ) (levels : Nat) (P : Bytes → Prop) (depth : Nat)
    (o : Outcome OperatorError K σ Unit) : Prop where
  runs : Entry.Runs P o.log
  within : Entry.Within (depth + 1) o.log
  passes : ∀ e, o.result = .error (.fatal e) → Passes r levels depth o.log e

/-- Nested streams from a depth, with what the resources supply, are run as described. -/
def RunSettings.Sound (r : RunSettings K σ) (levels : Nat) (start : σ) (depth : Nat) : Prop :=
  ∀ content scope setup s, s.depth = depth → r.resolver.Supplies start content →
    r.resolver.Reaches start scope → r.resolver.Equips start (setup s.state) →
    Answers r levels (r.resolver.Supplies start) depth (r.nestedRun levels content scope setup s)

/-- What holds while an operator is carried out, after a nested stream that ended by a fault or
after none. -/
structure Progress (r : RunSettings K σ) (levels : Nat) (start : σ) (depth : Nat)
    (fault : Option ContentError) (c : Context K σ) (log : List (Entry K σ)) : Prop where
  equips : r.resolver.EquipsAll start c
  runs : Entry.Runs (r.resolver.Supplies start) log
  within : Entry.Within (depth + 1) log
  passes : ∀ e, fault = some e → Passes r levels depth log e

/-- Whatever a built-in operator does next keeps it. -/
theorem Progress.keeps {start : σ} {depth : Nat} (sound : r.Sound levels start depth)
    (reached : r.resolver.Reaches start scope) (s : RunState K σ) :
    (Operators.standardManner (r.environment scope s)).monitor.Keeps (r.nestedRun levels) depth
      (Progress r levels start depth) where
  change fault log before after progress move :=
    { progress with equips := move.equipsAll reached progress.equips }
  tell fault log c e progress _ := by
    refine ⟨progress.equips, progress.runs.append ?_, progress.within.append ?_, ?_⟩
    · simp [Entry.Runs]
    · intro d _
      exact ⟨rfl, rfl⟩
    · intro e' given
      exact (progress.passes e' given).append _
  nest fault log content scope setup s progress hs allowed := by
    obtain ⟨supplied, inScope, equips⟩ := allowed.2.supplied reached progress.equips
    have answers := sound content scope setup s hs supplied inScope equips
    refine ⟨progress.equips, progress.runs.append answers.runs,
      progress.within.append answers.within, ?_⟩
    intro e given
    exact (answers.passes e (faultOf?_eq_some.mp given)).prepend _

/-- What carrying out one operator of a stream leaves behind. -/
structure Performed (r : RunSettings K σ) (levels : Nat) (scope start : σ) (s : RunState K σ)
    (call : Call K) (index : Nat) (o : Outcome OperatorError K σ Unit) : Prop where
  level : o.state.depth = s.depth
  equips : r.resolver.EquipsAll start o.state.toContext
  runs : Entry.Runs (r.resolver.Supplies start) o.log
  within : Entry.Within s.depth o.log
  started : Entry.startedAt s.depth o.log = [(call, index)]
  finished : Entry.finishedAt s.depth o.log = [(call, index)]
  faulted : ∀ e fault later, o.result = .error (.fatal e) →
    Faulted r levels scope s fault ((call, index) :: later) o.state o.log e

/-- What running a stream from a state leaves behind. -/
structure Conducted (r : RunSettings K σ) (levels : Nat) (scope start : σ) (s : RunState K σ)
    (fault : Option ContentError) (program : List (Call K × Nat))
    (o : Outcome ContentError K σ Unit) : Prop where
  runs : Entry.Runs (r.resolver.Supplies start) o.log
  within : Entry.Within s.depth o.log
  faulted : ∀ e, o.result = .error e → Faulted r levels scope s fault program o.state o.log e
  complete : s.depth = 0 → o.result = .ok () →
    fault = none ∧ (r.streamAt levels scope).CarriesOut s program o.state o.log

namespace RunState

variable {s : RunState K σ} {result : Except OperatorError Unit}

omit [Scalar K] in
/-- An operator ends its stream by a fault only with a fault of its own. -/
theorem ending?_eq_error {e : ContentError} (ending : s.ending? result = some (.error e)) :
    result = .error (.fatal e) := by
  cases result with
  | ok _ => cases ending
  | error error =>
      cases error with
      | fatal cause => simpa [ending?, react] using ending
      | emptyGraphicsStack =>
          simp only [ending?, react] at ending
          split at ending <;> grind
      | _ => simp [ending?, react] at ending

omit [Scalar K] in
/-- Without a fault an operator ends its stream only if the stream is nested. -/
theorem ending?_eq_ok (ending : s.ending? result = some (.ok ())) : 0 < s.depth := by
  cases result with
  | ok _ => cases ending
  | error error =>
      cases error with
      | emptyGraphicsStack =>
          by_contra outermost
          simp [ending?, react, outermost] at ending
      | _ => simp [ending?, react] at ending

end RunState

namespace RunSettings

section Reports

variable (r : RunSettings K σ) (call : Call K) (s : RunState K σ)
  (result : Except OperatorError Unit)

omit [Scalar K] in
theorem report_cases : r.report call s result = [] ∨ ∃ e, r.report call s result = [.event e] := by
  cases result with
  | ok _ => exact .inl rfl
  | error e =>
      simp only [report]
      split
      · exact .inr ⟨_, rfl⟩
      · exact .inl rfl

omit [Scalar K] in
@[simp] theorem startedAt_report (depth : Nat) :
    Entry.startedAt depth (r.report call s result) = [] := by
  rcases r.report_cases call s result with silent | ⟨e, told⟩
  · rw [silent, Entry.startedAt_nil]
  · rw [told, Entry.startedAt_event, Entry.startedAt_nil]

omit [Scalar K] in
@[simp] theorem finishedAt_report (depth : Nat) :
    Entry.finishedAt depth (r.report call s result) = [] := by
  rcases r.report_cases call s result with silent | ⟨e, told⟩
  · rw [silent, Entry.finishedAt_nil]
  · rw [told, Entry.finishedAt_event, Entry.finishedAt_nil]

omit [Scalar K] in
theorem runs_report (P : Bytes → Prop) : Entry.Runs P (r.report call s result) := by
  rcases r.report_cases call s result with silent | ⟨e, told⟩ <;> simp [Entry.Runs, *]

end Reports

variable {start : σ} {depth : Nat}

theorem performed (sound : r.Sound levels start depth) (reached : r.resolver.Reaches start scope)
    (operates : ∀ env c call, Operators.Operates env c (r.table.dispatch call)) (index : Nat)
    (call : Call K) {s : RunState K σ} (hs : s.depth = depth)
    (equips : r.resolver.EquipsAll start s.toContext) :
    Performed r levels scope start s call index ((r.streamAt levels scope).perform index call s) := by
  subst hs
  let s' : RunState K σ := { s with index }
  let env := r.environment scope s'
  have stable (t : RunState K σ) (same : t.place = s'.place) : r.environment scope t = env := by
    simp only [env, environment, same]
  have began : Progress r levels start s.depth none s'.toContext [] :=
    ⟨equips, by simp [Entry.Runs], fun _ _ => ⟨rfl, rfl⟩, by simp⟩
  have keeps := Progress.keeps sound reached s'
  have restores := restores_nestedRun r levels
  obtain ⟨fault, progress, _, fails⟩ := Action.Behaves.run restores (s := s') stable keeps began
    (operates env s'.toContext call)
  have place := Action.place_run restores (r.environment scope) (r.table.dispatch call) s'
  generalize dispatch : (r.table.dispatch call).run (r.environment scope) (r.nestedRun levels) s' = o
    at *
  replace dispatch : (r.streamAt levels scope).dispatched index call s = o := dispatch
  obtain ⟨equips, runs, within, passes⟩ := progress
  rw [List.nil_append] at runs within passes
  have depth : o.state.depth = s.depth := congrArg Place.depth place
  have place : o.state.index = index := congrArg Place.index place
  obtain ⟨noneStarted, noneFinished⟩ := within s.depth (Nat.lt_succ_self _)
  have faulted (e : ContentError) (fault' : Option ContentError) (later : List (Call K × Nat))
      (failed : o.result = .error (.fatal e)) :=
    Passes.faulted dispatch failed within (passes e ((fails _ failed).1.symm.trans rfl)) fault' later
  rw [StreamSettings.perform_of_dispatched dispatch, toRunSettings_streamAt] at faulted ⊢
  refine ⟨depth, equips, ?_, ?_, ?_, ?_, faulted⟩
  · have reported := r.runs_report call o.state o.result (r.resolver.Supplies start)
    intro content t mem
    exact (runs.append reported) content t (by simpa using mem)
  · intro d hd
    obtain ⟨before, after⟩ := within d (Nat.lt_succ_of_lt hd)
    simp [before, after, depth, Nat.ne_of_gt hd]
  · simp [noneStarted]
  · simp [noneFinished, depth, place]

/-- The tokens of a stream are run up to a fault. In a stream that is not nested nothing else ends
them. -/
theorem conducted_runTokens (sound : r.Sound levels start depth)
    (reached : r.resolver.Reaches start scope)
    (operates : ∀ env c call, Operators.Operates env c (r.table.dispatch call))
    (fault : Option ContentError) (operands : List (Operand K)) (count : Nat)
    (tokens : List (Token K)) {s : RunState K σ} (hs : s.depth = depth)
    (equips : r.resolver.EquipsAll start s.toContext) :
    Conducted r levels scope start s fault ((Content.calls operands tokens).zipIdx count)
      ((r.streamAt levels scope).runTokens fault operands count s tokens) := by
  induction tokens generalizing operands count s with
  | nil =>
      cases fault with
      | none =>
          refine ⟨?_, fun _ _ => ⟨rfl, rfl⟩, ?_, fun _ _ => ⟨rfl, .nil s⟩⟩
          · simp [Entry.Runs, StreamSettings.runTokens]
          · simp [StreamSettings.runTokens]
      | some e =>
          refine ⟨?_, fun _ _ => ⟨rfl, rfl⟩, ?_, ?_⟩
          · simp [Entry.Runs, StreamSettings.runTokens]
          · rintro _ ⟨⟩
            exact .own (.nil s)
          · intro _ completed
            cases completed
  | cons token rest ih =>
      cases token with
      | operand v => exact ih (operands ++ [v]) count hs equips
      | operator op =>
          have here := performed sound reached operates count ⟨op, operands⟩ hs equips
          simp only [StreamSettings.runTokens, Content.calls, List.zipIdx_cons]
          generalize performed : (r.streamAt levels scope).perform count ⟨op, operands⟩ s = o at *
          cases ending : o.state.ending? o.result with
          | some result =>
              refine ⟨here.runs, here.within, ?_, ?_⟩
              · rintro e rfl
                exact here.faulted e fault _ (RunState.ending?_eq_error ending)
              · rintro outermost rfl
                have nested := RunState.ending?_eq_ok ending
                have := here.level
                omega
          | none =>
              have later := ih [] (count + 1) (here.level.trans hs) here.equips
              have deeper := here.level ▸ later.within
              refine ⟨here.runs.append later.runs, here.within.append deeper, ?_, ?_⟩
              · intro e failed
                exact (later.faulted e failed).cons performed ending here.level here.started
                  here.finished
              · intro outermost completed
                obtain ⟨none, carried⟩ := later.complete (here.level.trans outermost) completed
                exact ⟨none, carried.cons performed ending here.level here.started here.finished⟩

theorem conducted_run (sound : r.Sound levels start depth) (reached : r.resolver.Reaches start scope)
    (operates : ∀ env c call, Operators.Operates env c (r.table.dispatch call)) (content : Bytes)
    {s : RunState K σ} (hs : s.depth = depth) (equips : r.resolver.EquipsAll start s.toContext) :
    Conducted r levels scope start s (Content.fault? K content) (Content.program content)
      ((r.streamAt levels scope).run content s) :=
  conducted_runTokens sound reached operates _ [] 0 _ hs equips

/-- Nested streams are run in this way, too. The induction is on the number of levels. -/
theorem sound_nestedRun (operates : ∀ env c call, Operators.Operates env c (r.table.dispatch call))
    (start : σ) (levels depth : Nat) : r.Sound levels start depth := by
  induction levels generalizing depth with
  | zero =>
      intro content scope setup s _ _ _ _
      simp only [nestedRun]
      split <;> exact ⟨by simp [Entry.Runs], fun _ _ => ⟨rfl, rfl⟩, by simp⟩
  | succ levels ih =>
      intro content scope setup s hs supplied reached equips
      by_cases limit : r.options.maxDepth ≤ s.depth
      · rw [nestedRun_of_limit _ _ _ _ _ limit]
        exact ⟨by simp [Entry.Runs], fun _ _ => ⟨rfl, rfl⟩, by simp⟩
      · rw [nestedRun_succ_of_lt _ _ _ _ _ (Nat.not_le.mp limit)]
        have entered : r.resolver.EquipsAll start (s.enter setup).toContext :=
          ⟨equips, by simp [RunState.enter]⟩
        have level : (s.enter setup).depth = depth + 1 := congrArg (· + 1) hs
        have inner := conducted_run (ih (depth + 1)) reached operates content level entered
        dsimp only [streamAt] at inner ⊢
        generalize StreamSettings.run _ content (s.enter setup) = o at *
        refine ⟨?_, ?_, ?_⟩
        · intro deeper t mem
          simp only [List.cons_append, List.mem_cons, List.mem_append, Entry.opened.injEq,
            reduceCtorEq, List.not_mem_nil, or_false] at mem
          rcases mem with ⟨rfl, _⟩ | mem
          · exact supplied
          · exact inner.runs deeper t mem
        · intro d hd
          simp [inner.within d (Nat.lt_of_lt_of_eq hd level.symm)]
        · intro e failed
          cases result : o.result with
          | ok _ => simp [result, Except.mapError] at failed
          | error cause =>
              have same : cause = e := by simpa [result, Except.mapError] using failed
              subst same
              exact ⟨levels, rfl, [], content, scope, s.enter setup, o.log, o.state, [], rfl, level,
                inner.faulted cause result⟩

/-- How the run of a page comes to its end. If the page and all that its resources supply are free
of faults, the run succeeds, and is that of all operators of the page: each is dispatched once, in
order. If the run fails, it is by a fault of the page or of a stream inside it, after all operators
before that. -/
structure OnlyFaultsEnd (r : RunSettings K σ) (content : Bytes) (scope : σ) : Prop where
  complete : Content.fault? K content = none →
    (∀ inner, r.resolver.Supplies scope inner → Content.fault? K inner = none) →
    (r.page content scope).result = .ok () ∧
      (r.outermost scope).CarriesOut (.initial r.baseMatrix) (Content.program content)
        (r.page content scope).state (r.page content scope).log
  faulted : ∀ e, (r.page content scope).result = .error e →
    Faulted r r.options.maxDepth scope (.initial r.baseMatrix) (Content.fault? K content)
      (Content.program content) (r.page content scope).state (r.page content scope).log e

theorem onlyFaultsEnd_of_operates
    (operates : ∀ env c call, Operators.Operates env c (r.table.dispatch call)) (content : Bytes)
    (scope : σ) : r.OnlyFaultsEnd content scope := by
  have sound := sound_nestedRun operates scope r.options.maxDepth 0
  have conducted := conducted_run (s := .initial r.baseMatrix) sound .start operates content rfl
    ⟨by rintro _ ⟨⟩, by rintro _ ⟨⟩⟩
  refine ⟨?_, conducted.faulted⟩
  intro whole supplied
  cases result : (r.page content scope).result with
  | ok _ => exact ⟨rfl, (conducted.complete rfl result).2⟩
  | error e =>
      rcases (conducted.faulted e result).exists_fault with own | ⟨inner, s, mem, fault⟩
      · cases whole.symm.trans own
      · cases (supplied inner (conducted.runs inner s mem)).symm.trans fault

/-- Whatever operands, missing resources, unknown operators, unbalanced restoring or the depth limit
do to single operators, on both built-in tables only faults of content end the run of a page. -/
theorem standard_onlyFaultsEnd (options : Options) (baseMatrix : Matrix K) (resolver : Resolver K σ)
    (content : Bytes) (scope : σ) :
    (graphics options baseMatrix resolver).OnlyFaultsEnd content scope ∧
      (text options resolver).OnlyFaultsEnd content scope := by
  have graphicsOperates : ∀ env c call,
      Operators.Operates env c ((graphics options baseMatrix resolver).table.dispatch call) :=
    fun _ c call => Operators.operates_graphicsTable call c
  have textOperates : ∀ env c call,
      Operators.Operates env c ((text options resolver).table.dispatch call) :=
    fun _ c call => Operators.operates_textTable call c
  exact ⟨onlyFaultsEnd_of_operates graphicsOperates content scope,
    onlyFaultsEnd_of_operates textOperates content scope⟩

end RunSettings

end PdfContent
