import PdfContent.Interpreter.Page

/-!
# Runs step by step

A `Machine` is a run at one moment: the stream that is being read, the streams around it that wait
for it, the state, and the log so far. `step` takes one token, or carries out one node of an action,
or enters or leaves a stream. It counts nothing down: neither the tokens nor the chains of operators
that stand for others nor the levels of streams are bounded in advance. Only the limit on the depth,
which the program itself checks, is compared with the depth in the state.

A stream is entered by putting the stream around it on the list of callers, together with what that
stream was doing and what has been parked for it. `WithinLimit` is the invariant of all steps: the
depth is the number of callers, and it is at most the limit.
-/

namespace PdfContent

variable {K σ : Type}

/-- A stream that is being read: the scope of its resources, the size of its content, what is left
of the content, and the operands and the number of operators up to there. -/
structure OpenStream (K σ : Type) where
  scope : σ
  size : Nat
  unread : Bytes
  operands : List (Operand K)
  count : Nat

/-- What the innermost stream is doing. -/
inductive Control (K σ : Type)
  | reading
  /-- What is left of an action, and the calls to carry out after it, all on behalf of one call. -/
  | performing (call : Call K) (action : Action K σ Unit) (pending : List (Call K))
  | ended (result : Except ContentError Unit)

/-- What a stream does after an operator that it has carried out. -/
def Control.after (s : RunState K σ) (result : Except OperatorError Unit) : Control K σ :=
  match s.ending? result with
  | some ending => .ended ending
  | none => .reading

/-- A stream that waits for the end of one that it has opened. -/
structure Caller (K σ : Type) where
  stream : OpenStream K σ
  call : Call K
  /-- How the action goes on. -/
  resume : Except OperatorError Unit → Action K σ Unit
  pending : List (Call K)
  parked : Parked K σ

structure Machine (K σ : Type) where
  control : Control K σ
  stream : OpenStream K σ
  /-- The streams around this one, innermost first. -/
  callers : List (Caller K σ)
  state : RunState K σ
  log : List (Entry K σ)

/-- A stream of which nothing has been read. -/
def OpenStream.ofContent (content : Bytes) (scope : σ) : OpenStream K σ :=
  ⟨scope, content.length, content, [], 0⟩

/-- What carrying out a call begins with, and the calls that it stands for. -/
def OperatorTable.expand (t : ContentTable K σ) (call : Call K) : Action K σ Unit × List (Call K) :=
  match t.find? call.operator.keyword with
  | none => (.fail (.unknownOperator call.operator.keyword), [])
  | some entry =>
    if call.operands.length < entry.minOperands then
      (.fail (.missingOperand call.operator.keyword entry.minOperands call.operands.length), [])
    else
      match entry.handler with
      | .action run => (run call, [])
      | .sequence steps =>
        match steps call with
        | .error e => (.fail e, [])
        | .ok calls => (.pure (), calls.map fun step => ⟨Operator.plain step.1, step.2⟩)

namespace Machine

variable [Scalar K] {r : RunSettings K σ} {m m' : Machine K σ}

/-- A run that is about to begin. -/
def start (content : Bytes) (scope : σ) (s : RunState K σ) : Machine K σ :=
  ⟨.reading, .ofContent content scope, [], s, []⟩

/-- A run that has come to its end. -/
def halted (stream : OpenStream K σ) (o : Outcome ContentError K σ Unit) : Machine K σ :=
  ⟨.ended o.result, stream, [], o.state, o.log⟩

/-- Takes one token. An operator is first one of the calls that are pending for itself. -/
def read (m : Machine K σ) : Machine K σ :=
  match Content.next m.stream.unread with
  | .error fault => { m with control := .ended (.error (fault.error m.stream.size)) }
  | .ok none => { m with control := .ended (.ok ()) }
  | .ok (some (.operand v, unread)) =>
    { m with stream := { m.stream with unread, operands := m.stream.operands ++ [v] } }
  | .ok (some (.operator op, unread)) =>
    let call : Call K := ⟨op, m.stream.operands⟩
    let state := { m.state with index := m.stream.count }
    { m with
      control := .performing call (.pure ()) [call]
      stream := { m.stream with unread, operands := [], count := m.stream.count + 1 }
      state
      log := m.log ++ [.started call state] }

/-- Ends an operator. -/
def settle (r : RunSettings K σ) (m : Machine K σ) (call : Call K)
    (result : Except OperatorError Unit) : Machine K σ :=
  { m with
    control := .after m.state result
    log := m.log ++ (r.report call m.state result ++ [.finished call result m.state]) }

/-- Enters a nested stream on behalf of a call. -/
def enter (m : Machine K σ) (call : Call K) (content : Bytes) (scope : σ)
    (setup : GraphicsState K σ → GraphicsState K σ)
    (resume : Except OperatorError Unit → Action K σ Unit) (pending : List (Call K)) :
    Machine K σ where
  control := .reading
  stream := .ofContent content scope
  callers := ⟨m.stream, call, resume, pending, m.state.park⟩ :: m.callers
  state := m.state.enter setup
  log := m.log ++ [.opened content (m.state.enter setup)]

/-- Carries out one node of an action. -/
def perform (r : RunSettings K σ) (m : Machine K σ) (call : Call K) (pending : List (Call K)) :
    Action K σ Unit → Machine K σ
  | .finish (.error e) => settle r m call (.error e)
  | .finish (.ok _) =>
    match pending with
    | [] => settle r m call (.ok ())
    | next :: later =>
      let expanded := r.table.expand next
      { m with control := .performing call expanded.1 (expanded.2 ++ later) }
  | .look next =>
    { m with
      control := .performing call
        (next (r.environment m.stream.scope m.state) m.state.toContext) pending }
  | .change f next =>
    { m with control := .performing call next pending, state := m.state.updateContext f }
  | .tell e next => { m with control := .performing call next pending, log := m.log ++ [.event e] }
  | .nest content scope setup next =>
    if r.options.maxDepth ≤ m.state.depth then
      { m with
        control := .performing call (next (.error (.recursionLimit r.options.maxDepth))) pending }
    else m.enter call content scope setup next pending

/-- Goes back to the stream that waits for the one that has ended. -/
def leave (m : Machine K σ) (result : Except ContentError Unit) (caller : Caller K σ)
    (callers : List (Caller K σ)) : Machine K σ where
  control := .performing caller.call (caller.resume (result.mapError .fatal)) caller.pending
  stream := caller.stream
  callers
  state := m.state.leave caller.parked
  log := m.log ++ [.closed result m.state]

/-- One step. There is none after the end of the outermost stream. -/
def step (r : RunSettings K σ) (m : Machine K σ) : Option (Machine K σ) :=
  match m.control with
  | .reading => some m.read
  | .performing call action pending => some (perform r m call pending action)
  | .ended result =>
    match m.callers with
    | [] => none
    | caller :: callers => some (m.leave result caller callers)

/-- Exactly `n` steps from one moment of a run to another. -/
inductive Exec (r : RunSettings K σ) : Nat → Machine K σ → Machine K σ → Prop
  | refl (u) : Exec r 0 u u
  | cons {n u v w} : step r u = some v → Exec r n v w → Exec r (n + 1) u w

/-- Some number of steps. -/
def Reaches (r : RunSettings K σ) (m m' : Machine K σ) : Prop := ∃ n, Exec r n m m'

theorem Exec.trans {n k : Nat} {u : Machine K σ} (first : Exec r n m u) (second : Exec r k u m') :
    Exec r (n + k) m m' := by
  induction first with
  | refl => simpa using second
  | @cons n m v u hstep _ ih =>
      simpa [Nat.add_assoc, Nat.add_comm, Nat.add_left_comm] using Exec.cons hstep (ih second)

namespace Reaches

theorem refl (m : Machine K σ) : Reaches r m m := ⟨0, .refl m⟩

theorem trans {u : Machine K σ} (first : Reaches r m u) (second : Reaches r u m') :
    Reaches r m m' := by
  obtain ⟨n, hn⟩ := first
  obtain ⟨k, hk⟩ := second
  exact ⟨n + k, hn.trans hk⟩

/-- One step, and whatever can be reached after it. -/
theorem step {u : Machine K σ} (hstep : Machine.step r m = some u) (rest : Reaches r u m') :
    Reaches r m m' := by
  obtain ⟨n, hn⟩ := rest
  exact ⟨n + 1, .cons hstep hn⟩

end Reaches

/-! ### Depth and callers -/

theorem read_level (m : Machine K σ) :
    m.read.state.depth = m.state.depth ∧ m.read.callers = m.callers := by
  rw [read]
  split <;> exact ⟨rfl, rfl⟩

omit [Scalar K] in
theorem perform_level (m : Machine K σ) (call : Call K) (pending : List (Call K))
    (x : Action K σ Unit) :
    ((perform r m call pending x).state.depth = m.state.depth ∧
      (perform r m call pending x).callers = m.callers) ∨
    (m.state.depth < r.options.maxDepth ∧
      (perform r m call pending x).state.depth = m.state.depth + 1 ∧
      ∃ caller, (perform r m call pending x).callers = caller :: m.callers) := by
  cases x with
  | finish result =>
      refine .inl ?_
      cases result with
      | error e => exact ⟨rfl, rfl⟩
      | ok _ => cases pending <;> exact ⟨rfl, rfl⟩
  | look next => exact .inl ⟨rfl, rfl⟩
  | change f next => exact .inl ⟨rfl, rfl⟩
  | tell e next => exact .inl ⟨rfl, rfl⟩
  | nest content scope setup next =>
      by_cases limit : r.options.maxDepth ≤ m.state.depth
      · simp only [perform, limit, if_true]
        exact .inl ⟨trivial, trivial⟩
      · simp only [perform, limit, if_false]
        exact .inr ⟨Nat.not_le.mp limit, rfl, _, rfl⟩

/-- A step stays within a stream, or enters a nested one below the limit, or leaves one. -/
theorem step_level (hstep : step r m = some m') :
    (m'.state.depth = m.state.depth ∧ m'.callers = m.callers) ∨
    (m.state.depth < r.options.maxDepth ∧ m'.state.depth = m.state.depth + 1 ∧
      ∃ caller, m'.callers = caller :: m.callers) ∨
    (m'.state.depth = m.state.depth - 1 ∧ ∃ caller, m.callers = caller :: m'.callers) := by
  rw [step] at hstep
  split at hstep
  · cases hstep
    exact .inl m.read_level
  · cases hstep
    exact (m.perform_level _ _ _).imp_right .inl
  · split at hstep
    · cases hstep
    next caller callers among =>
      cases hstep
      refine .inr (.inr ⟨?_, caller, among⟩)
      simp only [leave, RunState.leave, RunState.resume]
      split <;> rfl

/-- The depth is the number of streams around the innermost one, and no more than the limit. -/
structure WithinLimit (r : RunSettings K σ) (m : Machine K σ) : Prop where
  depth : m.state.depth = m.callers.length
  limit : m.state.depth ≤ r.options.maxDepth

theorem WithinLimit.step (within : WithinLimit r m) (hstep : Machine.step r m = some m') :
    WithinLimit r m' := by
  have depth := within.depth
  have limit := within.limit
  obtain ⟨same, callers⟩ | ⟨below, deeper, caller, callers⟩ | ⟨shallower, caller, callers⟩ :=
    step_level hstep
  · exact ⟨by rw [same, callers, depth], by omega⟩
  · exact ⟨by simp [deeper, callers, depth], by omega⟩
  · simp only [callers, List.length_cons] at depth
    exact ⟨by omega, by omega⟩

theorem WithinLimit.exec {n : Nat} (within : WithinLimit r m) (execution : Exec r n m m') :
    WithinLimit r m' := by
  induction execution with
  | refl => exact within
  | cons hstep _ ih => exact ih (within.step hstep)

end Machine

end PdfContent
