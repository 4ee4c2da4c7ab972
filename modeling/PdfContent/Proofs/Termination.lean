import PdfContent.Proofs.Lookup
import PdfContent.Proofs.Restoration

/-!
# Every run comes to its end within the depth limit

The machine runs on until the outermost stream has ended, with no bound given in advance. That it
does end is shown by following the run that `RunSettings.run` computes: the machine reaches whatever
state and log an action, an operator, the tokens of a stream and a nested stream leave behind.

The recursion behind this is the one that makes runs finite, and it has four parts. A nested stream
has one level less before the depth limit; within a stream each token leaves fewer bytes; an
operator that stands for others has a higher rank than they have; and an action is a finite tree, in
which each code of a shown string has its own node. Along the steps themselves the depth is the
number of callers, because streams are entered and left one at a time, and entering is the one step
that checks the limit.
-/

namespace PdfContent

namespace Machine

variable {K σ : Type} [Scalar K] {r : RunSettings K σ} {nested : NestedRun K σ} {depth : Nat}
variable {rank : String → Nat}

/-- The machine at something to carry out on behalf of a call. -/
def performing (m : Machine K σ) (call : Call K) (x : Action K σ Unit) (pending : List (Call K)) :
    Machine K σ :=
  { m with control := .performing call x pending }

/-- The machine after something has been carried out, with the state and the log that it left. -/
def advance {ε α : Type} (m : Machine K σ) (control : Control K σ) (o : Outcome ε K σ α) :
    Machine K σ :=
  { m with control, state := o.state, log := m.log ++ o.log }

omit [Scalar K] in
theorem advance_advance {ε ε' α β : Type} (m : Machine K σ) (first second : Control K σ)
    (o : Outcome ε K σ α) (o' : Outcome ε' K σ β) :
    (m.advance first o).advance second o' = m.advance second (o'.after o.log) := by
  simp [advance, Outcome.after]

omit [Scalar K] in
/-- Where nothing has been carried out, nothing but the control is new. -/
theorem advance_nothing {ε α : Type} (m : Machine K σ) (control : Control K σ)
    (result : Except ε α) :
    m.advance control ⟨result, m.state, []⟩ = { m with control } := by
  simp [advance]

/-- At a depth, the machine gets from opening a nested stream to where the stream has been left
again, with what `nested` gives. -/
def Follows (r : RunSettings K σ) (nested : NestedRun K σ) (depth : Nat) : Prop :=
  ∀ (m : Machine K σ) call content scope setup resume pending, m.state.depth = depth →
    Reaches r (m.performing call (.nest content scope setup resume) pending)
      (m.advance (.performing call (resume (nested content scope setup m.state).result) pending)
        (nested content scope setup m.state))

/-- An action is carried out to its result. -/
theorem reaches_action (follows : Follows r nested depth) (restores : nested.Restores)
    (call : Call K) (x : Action K σ Unit) (pending : List (Call K)) (m : Machine K σ)
    (hm : m.state.depth = depth) :
    Reaches r (m.performing call x pending)
      (m.advance
        (.performing call (.finish (x.run (r.environment m.stream.scope) nested m.state).result)
          pending)
        (x.run (r.environment m.stream.scope) nested m.state)) := by
  induction x generalizing m with
  | finish result => simpa [advance, performing, Action.run] using Reaches.refl _
  | look next ih => exact .step rfl (ih _ _ m hm)
  | change f next ih => exact .step rfl (ih { m with state := m.state.updateContext f } hm)
  | tell e next ih =>
      have rest := ih { m with log := m.log ++ [.event e] } hm
      simp only [advance, List.append_assoc] at rest
      exact .step rfl rest
  | nest content scope setup next ih =>
      have back : (nested content scope setup m.state).state = m.state :=
        restores content scope setup m.state
      have there := follows m call content scope setup next pending hm
      have rest := ih (nested content scope setup m.state).result
        (m.advance m.control (nested content scope setup m.state))
        (by simp only [advance, back, hm])
      simp only [advance_advance] at rest
      exact there.trans rest

/-- From `u` the machine arrives at the outcome of what is carried out from `m`. If that has not
failed, the calls that are `pending` are left; after a failure it does not matter which are. -/
def Arrives (r : RunSettings K σ) (m u : Machine K σ) (call : Call K) (pending : List (Call K))
    (o : Outcome OperatorError K σ Unit) : Prop :=
  ∃ left, (o.result = .ok () → left = pending) ∧
    Reaches r u (m.advance (.performing call (.finish o.result) left) o)

theorem Arrives.andThen {m u : Machine K σ} {call : Call K} {first second : List (Call K)}
    {o : Outcome OperatorError K σ Unit} {f : Unit → RunState K σ → Outcome OperatorError K σ Unit}
    (arrives : Arrives r m u call first o)
    (next : Arrives r (m.advance m.control o)
      ((m.advance m.control o).performing call (.pure ()) first) call second (f () o.state)) :
    Arrives r m u call second (o.andThen f) := by
  obtain ⟨left, kept, reached⟩ := arrives
  cases result : o.result with
  | error e =>
      rw [result] at reached
      rw [Outcome.andThen_of_error result]
      exact ⟨left, fun h => (by cases h), reached⟩
  | ok _ =>
      obtain ⟨left', kept', reached'⟩ := next
      rw [result, kept result] at reached
      rw [Outcome.andThen_of_ok result]
      exact ⟨left', kept', reached.trans (advance_advance m _ _ o _ ▸ reached')⟩

/-- Calls that stand for one call are carried out one after the other, up to the first that fails.
The induction is on the links that are left, and for each number of links on the calls. -/
theorem arrives_calls (follows : Follows r nested depth) (restores : nested.Restores)
    (ranked : r.table.Ranked rank) (call : Call K) (links : Nat) (calls : List (Call K))
    (enough : ∀ c ∈ calls, rank c.operator.keyword < links) (pending : List (Call K))
    (m : Machine K σ) (hm : m.state.depth = depth) :
    Arrives r m (m.performing call (.pure ()) (calls ++ pending)) call pending
      ((forM calls (r.table.dispatchWithin links)).run
        (r.environment m.stream.scope) nested m.state) := by
  induction links generalizing calls pending m with
  | zero =>
      cases calls with
      | nil => exact ⟨pending, fun _ => rfl, advance_nothing m _ _ ▸ .refl _⟩
      | cons first rest => exact absurd (enough first (by simp)) (Nat.not_lt_zero _)
  | succ links ihLinks =>
      induction calls generalizing m with
      | nil => exact ⟨pending, fun _ => rfl, advance_nothing m _ _ ▸ .refl _⟩
      | cons first rest ih =>
          have lower : ∀ c ∈ (r.table.expand first).2, rank c.operator.keyword < links := by
            intro c hc
            have below := ranked first c hc
            have := enough first (by simp)
            omega
          have later : ∀ c ∈ rest, rank c.operator.keyword < links + 1 := by
            intro c hc
            exact enough c (List.mem_cons_of_mem _ hc)
          have level (x : Action K σ Unit) :
              (x.run (r.environment m.stream.scope) nested m.state).state.depth = depth :=
            (Action.sameLevel_run restores _ x m.state).depth.trans hm
          have acted : Arrives r m (m.performing call (.pure ()) (first :: rest ++ pending)) call
              ((r.table.expand first).2 ++ (rest ++ pending)) _ :=
            ⟨_, fun _ => rfl, .step rfl (reaches_action follows restores call _ _ m hm)⟩
          rw [List.forM_cons, Action.run_bind]
          refine Arrives.andThen ?_ (ih later (m.advance m.control _) (level _))
          rw [OperatorTable.dispatchWithin_succ, Action.run_bind]
          exact acted.andThen (ihLinks _ lower _ (m.advance m.control _) (level _))

/-- An action that came to its result ends the operator, if no calls are pending after success. -/
theorem step_finish (m : Machine K σ) (call : Call K) (pending : List (Call K))
    (o : Outcome OperatorError K σ Unit) (rest : o.result = .ok () → pending = []) :
    step r (m.advance (.performing call (.finish o.result) pending) o) =
      some (settle r (m.advance .reading o) call o.result) := by
  cases result : o.result with
  | error e => rfl
  | ok _ => rw [rest result]; rfl

/-- An operator is carried out, and the stream goes on or ends. -/
theorem reaches_perform (follows : Follows r nested depth) (restores : nested.Restores)
    (ranked : r.table.Ranked rank) (bounded : ∀ keyword, rank keyword < 3) (index : Nat)
    (call : Call K) (m : Machine K σ) (hm : m.state.depth = depth) (start : RunState K σ)
    (hstart : start = { m.state with index }) (o : Outcome OperatorError K σ Unit)
    (ho : o = StreamSettings.perform { r with scope := m.stream.scope, nested } index call
      m.state) :
    Reaches r
      ({ m with state := start, log := m.log ++ [Entry.started call start] }.performing
        call (.pure ()) [call])
      (m.advance (.after o.state o.result) o) := by
  have enough : ∀ c ∈ [call], rank c.operator.keyword < 3 * (call.operands.length + 1) := by
    simp only [List.mem_singleton, forall_eq]
    have := bounded call.operator.keyword
    omega
  have one : forM [call] (r.table.dispatchWithin (3 * (call.operands.length + 1))) =
      r.table.dispatch call := by
    simp [OperatorTable.dispatch]
  have arrives := arrives_calls follows restores ranked call _ [call] enough []
    { m with state := start, log := m.log ++ [Entry.started call start] } (by rw [hstart, ← hm])
  rw [one] at arrives
  rw [StreamSettings.perform, ← hstart] at ho
  dsimp only at arrives ho
  generalize (r.table.dispatch call).run (r.environment m.stream.scope) nested start = done
    at arrives ho
  obtain ⟨left, kept, reached⟩ := arrives
  subst ho
  refine reached.trans (.step (step_finish _ call left done kept) ?_)
  simp only [settle, advance, List.append_assoc, List.cons_append, List.nil_append]
  exact .refl _

/-- The machine at a stream that is being read. -/
def reading (m : Machine K σ) (stream : OpenStream K σ) : Machine K σ :=
  { m with control := .reading, stream }

/-- The rest of a stream is read to where the stream ends. The induction is on the bytes that are
left. -/
theorem reaches_tokens (follows : Follows r nested depth) (restores : nested.Restores)
    (ranked : r.table.Ranked rank) (bounded : ∀ keyword, rank keyword < 3) (scope : σ) (size : Nat)
    (unread : Bytes) (operands : List (Operand K)) (count : Nat) (m : Machine K σ)
    (hm : m.state.depth = depth) :
    let tokens : Content.TokenStream K := .ofBytes unread
    let o := ({ r with scope, nested } : StreamSettings K σ).runTokens (tokens.error? size)
      operands count m.state tokens.values
    ∃ stream, Reaches r (m.reading ⟨scope, size, unread, operands, count⟩)
      ({ m with stream }.advance (.ended o.result) o) := by
  fun_induction Content.TokenStream.ofBytes (K := K) unread generalizing operands count m with
  | case1 unread fault hnext =>
      refine ⟨⟨scope, size, unread, operands, count⟩, .step (u := _) rfl ?_⟩
      simp only [read, reading, hnext]
      exact advance_nothing _ _ _ ▸ .refl _
  | case2 unread hnext =>
      refine ⟨⟨scope, size, unread, operands, count⟩, .step (u := _) rfl ?_⟩
      simp only [read, reading, hnext]
      exact advance_nothing _ _ _ ▸ .refl _
  | case3 unread token after hnext _ ih =>
      have read : Reaches r (m.reading ⟨scope, size, unread, operands, count⟩)
        (m.reading ⟨scope, size, unread, operands, count⟩).read := .step rfl (.refl _)
      cases token with
      | operand v =>
          obtain ⟨stream, reached⟩ := ih (operands ++ [v]) count m hm
          refine ⟨stream, read.trans ?_⟩
          simp only [Machine.read, reading, hnext]
          exact reached
      | operator op =>
          have level : (StreamSettings.perform { r with scope, nested } count
              ⟨op, operands⟩ m.state).state.depth = m.state.depth :=
            (StreamSettings.sameLevel_perform restores count ⟨op, operands⟩ m.state).depth
          have performed := reaches_perform follows restores ranked bounded count ⟨op, operands⟩
            { m with stream := ⟨scope, size, after, [], count + 1⟩ } hm _ rfl _ rfl
          simp only [Content.TokenStream.values, List.map_cons, StreamSettings.runTokens]
          generalize ({ r with scope, nested } : StreamSettings K σ).perform count
            ⟨op, operands⟩ m.state = o at *
          cases ending : o.state.ending? o.result with
          | some result =>
              refine ⟨⟨scope, size, after, [], count + 1⟩, read.trans ?_⟩
              simp only [Machine.read, reading, hnext]
              simp only [Control.after, ending] at performed
              exact performed
          | none =>
              obtain ⟨stream, reached⟩ := ih [] (count + 1) (m.advance .reading o) (level.trans hm)
              refine ⟨stream, read.trans ?_⟩
              simp only [Machine.read, reading, hnext]
              simp only [Control.after, ending] at performed
              refine performed.trans ?_
              exact advance_advance { m with stream } .reading _ o _ ▸ reached

/-- At the depth limit an action goes on with an error in place of a nested stream. -/
theorem step_nest_of_limit (m : Machine K σ) (call : Call K) (content : Bytes) (scope : σ)
    (setup : GraphicsState K σ → GraphicsState K σ)
    (resume : Except OperatorError Unit → Action K σ Unit) (pending : List (Call K))
    (limit : r.options.maxDepth ≤ m.state.depth) :
    step r (m.performing call (.nest content scope setup resume) pending) =
      some (m.performing call (resume (.error (.recursionLimit r.options.maxDepth))) pending) := by
  simp only [step, perform, performing, limit, if_true]

/-- Below the limit the nested stream is entered. -/
theorem step_nest_of_lt (m : Machine K σ) (call : Call K) (content : Bytes) (scope : σ)
    (setup : GraphicsState K σ → GraphicsState K σ)
    (resume : Except OperatorError Unit → Action K σ Unit) (pending : List (Call K))
    (below : m.state.depth < r.options.maxDepth) :
    step r (m.performing call (.nest content scope setup resume) pending) =
      some (m.enter call content scope setup resume pending) := by
  simp only [step, perform, performing, Nat.not_le.mpr below, if_false]
  rfl

/-- Nested streams are run as `nestedRun` says, if it allows for as many levels as there can be
below the depth limit. -/
theorem follows_nestedRun (ranked : r.table.Ranked rank) (bounded : ∀ keyword, rank keyword < 3)
    (levels : Nat) (enough : r.options.maxDepth ≤ levels + depth) :
    Follows r (r.nestedRun levels) depth := by
  induction levels generalizing depth with
  | zero =>
      intro m call content scope setup resume pending hm
      have limit : r.options.maxDepth ≤ m.state.depth := by omega
      refine .step (step_nest_of_limit m call content scope setup resume pending limit) ?_
      simp only [RunSettings.nestedRun, limit, if_true, advance_nothing]
      exact .refl _
  | succ levels ih =>
      intro m call content scope setup resume pending hm
      by_cases limit : r.options.maxDepth ≤ m.state.depth
      · refine .step (step_nest_of_limit m call content scope setup resume pending limit) ?_
        simp only [RunSettings.nestedRun, limit, if_true, advance_nothing]
        exact .refl _
      · have below := Nat.not_le.mp limit
        refine .step (step_nest_of_lt m call content scope setup resume pending below) ?_
        have inner : Follows r (r.nestedRun levels) (m.state.depth + 1) := ih (by omega)
        obtain ⟨stream, reached⟩ := reaches_tokens inner (r.restores_nestedRun levels) ranked
          bounded scope content.length content [] 0
          (m.enter call content scope setup resume pending) rfl
        refine Reaches.trans reached (.step (u := _) rfl ?_)
        simp only [RunSettings.nestedRun, limit, if_false, StreamSettings.run]
        simp only [leave, enter, advance, List.append_assoc, List.cons_append, List.nil_append]
        exact .refl _

/-- The machine brings a page to its end, with the outcome that running the page has. -/
theorem reaches_halted (ranked : r.table.Ranked rank) (bounded : ∀ keyword, rank keyword < 3)
    (content : Bytes) (scope : σ) (s : RunState K σ) :
    ∃ stream, Reaches r (start content scope s) (halted stream (r.run content scope s)) := by
  have follows : Follows r (r.nestedRun r.options.maxDepth) s.depth :=
    follows_nestedRun ranked bounded r.options.maxDepth (Nat.le_add_right _ _)
  exact reaches_tokens follows (r.restores_nestedRun r.options.maxDepth) ranked bounded scope
    content.length content [] 0 (start content scope s) rfl

end Machine

namespace RunSettings

variable {K σ : Type} [Scalar K]

/-- The run of a page comes to its end, and on the way to it the depth is always the number of
streams around the innermost one and no more than the limit. At the limit no stream is opened. -/
structure EndsWithinLimit (r : RunSettings K σ) (content : Bytes) (scope : σ) : Prop where
  ends : ∃ n stream, Machine.Exec r n (.start content scope (.initial r.baseMatrix))
    (.halted stream (r.page content scope))
  depth : ∀ n m, Machine.Exec r n (.start content scope (.initial r.baseMatrix)) m →
    m.state.depth = m.callers.length
  limit : ∀ n m, Machine.Exec r n (.start content scope (.initial r.baseMatrix)) m →
    m.state.depth ≤ r.options.maxDepth
  shut : ∀ n m m' caller, Machine.Exec r n (.start content scope (.initial r.baseMatrix)) m →
    m.state.depth = r.options.maxDepth → Machine.step r m = some m' →
      m'.callers ≠ caller :: m.callers

theorem endsWithinLimit_of_ranked (r : RunSettings K σ) {rank : String → Nat}
    (ranked : r.table.Ranked rank) (bounded : ∀ keyword, rank keyword < 3) (content : Bytes)
    (scope : σ) : r.EndsWithinLimit content scope := by
  have within {n : Nat} {m : Machine K σ}
      (execution : Machine.Exec r n (.start content scope (.initial r.baseMatrix)) m) :
      Machine.WithinLimit r m :=
    Machine.WithinLimit.exec ⟨rfl, Nat.zero_le _⟩ execution
  obtain ⟨stream, n, ends⟩ := Machine.reaches_halted ranked bounded content scope
    (.initial r.baseMatrix)
  refine ⟨⟨n, stream, ends⟩, ?_, ?_, ?_⟩
  · intro n m execution
    exact (within execution).depth
  · intro n m execution
    exact (within execution).limit
  · intro n m m' caller execution full hstep among
    obtain ⟨_, same⟩ | ⟨below, _⟩ | ⟨_, left, same⟩ := Machine.step_level hstep
    · exact absurd (congrArg List.length (among.symm.trans same)) (by simp)
    · omega
    · have lengths := congrArg List.length (same.trans (congrArg (left :: ·) among))
      simp only [List.length_cons] at lengths
      omega

/-- Pages end within the depth limit on both built-in tables, whatever the content, the resources
and the options are, also where forms, pattern cells or glyph procedures lead back to themselves. -/
theorem standard_endsWithinLimit (options : Options) (baseMatrix : Matrix K)
    (resolver : Resolver K σ) (content : Bytes) (scope : σ) :
    (graphics options baseMatrix resolver).EndsWithinLimit content scope ∧
      (text options resolver).EndsWithinLimit content scope := by
  have graphicsRanked : (graphics options baseMatrix resolver).table.Ranked Operators.rank :=
    Operators.ranked_graphicsTable
  have textRanked : (text options resolver).table.Ranked Operators.rank :=
    Operators.ranked_textTable
  exact ⟨endsWithinLimit_of_ranked _ graphicsRanked Operators.rank_lt content scope,
    endsWithinLimit_of_ranked _ textRanked Operators.rank_lt content scope⟩

end RunSettings

end PdfContent
