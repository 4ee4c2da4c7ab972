import PdfContent.Proofs.Machine
import PdfContent.Proofs.Monitor

/-!
# What each step of a run does

A run takes many kinds of steps, but only few of them matter to an invariant: the context is
changed, the device is told something, a nested stream is entered or left. `Progress` says for a
step which of these it is, and that what an operator does by it is allowed by a monitor.

A monitor allows all steps of a run if it allows what the operators of the table begin with. That is
`Watched`, an invariant of the machine: what is left of the current action is allowed, and so is,
for each stream that waits, what its action goes on with. A waiting stream finds its state again as
it was.
-/

namespace PdfContent

variable {K σ G : Type} {watch : Environment K σ → Monitor K σ G}

/-- From some value of the monitor on, all that an action may do in a context is allowed. -/
def Action.Heeds (watch : Environment K σ → Monitor K σ G) (env : Environment K σ) (c : Context K σ)
    (x : Action K σ Unit) : Prop :=
  ∃ g, x.Obeys (watch env) env (fun _ _ _ => True) (fun _ _ _ => True) g c

theorem Action.Obeys.heeds {env : Environment K σ} {c : Context K σ} {x : Action K σ Unit} {g : G}
    {Q : Unit → G → Context K σ → Prop} {E : OperatorError → G → Context K σ → Prop}
    (obeys : x.Obeys (watch env) env Q E g c) : x.Heeds watch env c :=
  ⟨g, obeys.mono (fun _ _ _ _ => trivial) fun _ _ _ _ => trivial⟩

/-- The stream is not within an operator. -/
def Control.Between : Control K σ → Prop
  | .performing .. => False
  | _ => True

namespace Machine

/-- The streams that wait for a stream of the given depth, with the given paths on the stash. Each
has parked a state to which depth and stash lead back, and goes on there with what is allowed. -/
inductive Waiting (watch : Environment K σ → Monitor K σ G) (r : RunSettings K σ) :
    Nat → List (PathBuilder K × Option FillRule) → List (Caller K σ) → Prop
  | nil {depth stash} : Waiting watch r depth stash []
  | cons {caller callers} (s : RunState K σ) (parked : caller.parked = s.park)
    (resumes : ∀ answer,
      (caller.resume answer).Heeds watch (r.environment caller.stream.scope s) s.toContext)
    (outer : Waiting watch r s.depth s.stash callers) :
    Waiting watch r (s.depth + 1) ((s.path, s.pendingClip) :: s.stash) (caller :: callers)

/-- Whatever the machine goes on to do on behalf of an operator is allowed. -/
structure Watched (watch : Environment K σ → Monitor K σ G) (r : RunSettings K σ)
    (m : Machine K σ) : Prop where
  performs : ∀ call x pending, m.control = .performing call x pending →
    x.Heeds watch (r.environment m.stream.scope m.state) m.state.toContext
  waits : Waiting watch r m.state.depth m.state.stash m.callers

/-- A call that the machine is about to carry out. -/
def Starts (m : Machine K σ) (next : Call K) : Prop :=
  ∃ call later, m.control = .performing call (.pure ()) (next :: later)

/-- What a step does to the context, to the streams that are open, and tells the device. -/
inductive Progress (watch : Environment K σ → Monitor K σ G) (r : RunSettings K σ)
    (m m' : Machine K σ) : Prop
  /-- Nothing, but for a warning perhaps. -/
  | quiet (callers : m'.callers = m.callers) (context : m'.state.toContext = m.state.toContext)
    (warnings : List Warning)
    (told : Entry.events m'.log = Entry.events m.log ++ warnings.map Event.warning)
  | change (callers : m'.callers = m.callers) (told : m'.log = m.log) (g : G)
    (allowed : (watch (r.environment m.stream.scope m.state)).allows g
      (.change m.state.toContext m'.state.toContext))
  | tell (callers : m'.callers = m.callers) (context : m'.state.toContext = m.state.toContext)
    (e : Event K σ) (told : Entry.events m'.log = Entry.events m.log ++ [e]) (g : G)
    (allowed : (watch (r.environment m.stream.scope m.state)).allows g (.tell m.state.toContext e))
  | enter (caller : Caller K σ) (callers : m'.callers = caller :: m.callers)
    (parked : caller.parked = m.state.park) (content : Bytes) (scope : σ)
    (setup : GraphicsState K σ → GraphicsState K σ) (stream : m'.stream = .ofContent content scope)
    (state : m'.state = m.state.enter setup) (told : Entry.events m'.log = Entry.events m.log)
    (g : G)
    (allowed : (watch (r.environment m.stream.scope m.state)).allows g
      (.nest m.state.toContext content scope setup))
  | leave (caller : Caller K σ) (callers : m.callers = caller :: m'.callers)
    (states : m'.state.states = caller.parked.states)
    (told : Entry.events m'.log = Entry.events m.log)

section Steps

variable {r : RunSettings K σ} {m m' : Machine K σ}

/-- A step in which nothing is told and only what belongs to the reading of streams is changed. -/
theorem Progress.silent (callers : m'.callers = m.callers)
    (context : m'.state.toContext = m.state.toContext)
    (told : Entry.events m'.log = Entry.events m.log) : Progress watch r m m' :=
  .quiet callers context [] (by simpa using told)

/-- Between operators only the streams that wait have to be looked at. -/
theorem Watched.between (between : m.control.Between)
    (waits : Waiting watch r m.state.depth m.state.stash m.callers) : Watched watch r m := by
  refine ⟨fun call x pending h => ?_, waits⟩
  rw [h] at between
  cases between

/-- The machine at an action of which all is allowed. -/
theorem Watched.performing {call : Call K} {x : Action K σ Unit} {pending : List (Call K)}
    (control : m.control = .performing call x pending)
    (heeds : x.Heeds watch (r.environment m.stream.scope m.state) m.state.toContext)
    (waits : Waiting watch r m.state.depth m.state.stash m.callers) : Watched watch r m := by
  refine ⟨fun call' x' pending' h => ?_, waits⟩
  cases control.symm.trans h
  exact heeds

theorem Watched.settle (watched : Watched watch r m) (call : Call K)
    (result : Except OperatorError Unit) :
    Watched watch r (settle r m call result) ∧ Progress watch r m (settle r m call result) := by
  refine ⟨.between ?_ watched.waits, ?_⟩
  · change (Control.after m.state result).Between
    rw [Control.after]
    split <;> trivial
  · cases result with
    | ok _ =>
        refine .silent rfl rfl ?_
        simp [Machine.settle, RunSettings.report, Entry.events, Entry.event?]
    | error e =>
        by_cases reported : (m.state.react e).reports && r.options.collectWarnings
        · refine .quiet rfl rfl [.ofError e call.operator.keyword m.state.index m.state.depth] ?_
          simp [Machine.settle, RunSettings.report, reported, Entry.events, Entry.event?]
        · refine .silent rfl rfl ?_
          simp [Machine.settle, RunSettings.report, reported, Entry.events, Entry.event?]

/-- A node of an action is carried out. -/
theorem Watched.perform
    (begins : ∀ next, m.Starts next → (r.table.expand next).1.Heeds watch
      (r.environment m.stream.scope m.state) m.state.toContext)
    (watched : Watched watch r m) {call : Call K} {x : Action K σ Unit}
    {pending : List (Call K)} (control : m.control = .performing call x pending) :
    Watched watch r (perform r m call pending x) ∧
      Progress watch r m (perform r m call pending x) := by
  have waits := watched.waits
  obtain ⟨g, obeys⟩ := watched.performs call x pending control
  cases x with
  | finish result =>
      cases result with
      | error e => exact watched.settle call (.error e)
      | ok _ =>
          cases pending with
          | nil => exact watched.settle call (.ok ())
          | cons next later =>
              exact ⟨.performing rfl (begins next ⟨call, later, control⟩) waits, .silent rfl rfl rfl⟩
  | look next => exact ⟨.performing rfl ⟨g, obeys⟩ waits, .silent rfl rfl rfl⟩
  | change f next => exact ⟨.performing rfl ⟨_, obeys.2⟩ waits, .change rfl rfl g obeys.1⟩
  | tell e next =>
      exact ⟨.performing rfl ⟨_, obeys.2⟩ waits,
        .tell rfl rfl e (by simp [Machine.perform]) g obeys.1⟩
  | nest content scope setup next =>
      by_cases limit : r.options.maxDepth ≤ m.state.depth
      · simp only [Machine.perform, limit, if_true]
        exact ⟨.performing rfl ⟨_, obeys.2 _⟩ waits, .silent rfl rfl rfl⟩
      · simp only [Machine.perform, limit, if_false]
        refine ⟨.between trivial ?_, ?_⟩
        · exact .cons m.state rfl (fun answer => ⟨_, obeys.2 answer⟩) waits
        · refine .enter _ rfl rfl content scope setup rfl rfl ?_ g obeys.1
          simp [enter, Entry.events, Entry.event?]

/-- Leaving a nested stream, its caller's state is what it was when the stream was entered. -/
theorem Watched.leave (watched : Watched watch r m) (result : Except ContentError Unit)
    {caller : Caller K σ} {callers : List (Caller K σ)} (among : m.callers = caller :: callers) :
    Watched watch r (m.leave result caller callers) ∧
      Progress watch r m (m.leave result caller callers) := by
  have waits := watched.waits
  rw [among] at waits
  generalize depth : m.state.depth = d at waits
  generalize stash : m.state.stash = paths at waits
  cases waits with
  | cons s parked resumes outer =>
      have back : m.state.leave caller.parked = s := by
        rw [parked]
        exact RunState.leave_park depth stash
      refine ⟨.performing rfl ?_ ?_, .leave caller among ?_ ?_⟩
      · change Action.Heeds watch (r.environment caller.stream.scope (m.state.leave caller.parked))
          (m.state.leave caller.parked).toContext _
        rw [back]
        exact resumes _
      · change Waiting watch r (m.state.leave caller.parked).depth
          (m.state.leave caller.parked).stash callers
        rw [back]
        exact outer
      · change (m.state.leave caller.parked).states = _
        rw [back, parked]
        rfl
      · simp [Machine.leave, Entry.events, Entry.event?]

variable [Scalar K]

theorem Watched.read [Nonempty G] (watched : Watched watch r m)
    (reading : m.control = .reading) :
    Watched watch r m.read ∧ Progress watch r m m.read := by
  have waits := watched.waits
  rw [Machine.read]
  split
  · exact ⟨.between trivial waits, .silent rfl rfl rfl⟩
  · exact ⟨.between trivial waits, .silent rfl rfl rfl⟩
  · exact ⟨.between (by simp only [reading, Control.Between]) waits, .silent rfl rfl rfl⟩
  · obtain ⟨g⟩ := ‹Nonempty G›
    refine ⟨.performing rfl ⟨g, trivial⟩ waits, .silent rfl rfl ?_⟩
    simp [Entry.events, Entry.event?]

/-- All that a step does is allowed, if all is that the call begins with that is carried out next. -/
theorem Watched.step_of_starts [Nonempty G]
    (begins : ∀ next, m.Starts next → (r.table.expand next).1.Heeds watch
      (r.environment m.stream.scope m.state) m.state.toContext)
    (watched : Watched watch r m) (hstep : Machine.step r m = some m') :
    Watched watch r m' ∧ Progress watch r m m' := by
  rw [Machine.step] at hstep
  split at hstep
  next reading =>
    cases hstep
    exact watched.read reading
  next control =>
    cases hstep
    exact watched.perform begins control
  · split at hstep
    · cases hstep
    next among =>
      cases hstep
      exact watched.leave _ among

/-- All that a step does is allowed, if all is that operators begin with. -/
theorem Watched.step [Nonempty G] (begins : ∀ env c call, (r.table.expand call).1.Heeds watch env c)
    (watched : Watched watch r m) (hstep : Machine.step r m = some m') :
    Watched watch r m' ∧ Progress watch r m m' :=
  watched.step_of_starts (fun next _ => begins _ _ next) hstep

theorem Watched.reaches [Nonempty G]
    (begins : ∀ env c call, (r.table.expand call).1.Heeds watch env c)
    (watched : Watched watch r m) (reached : Reaches r m m') : Watched watch r m' := by
  obtain ⟨n, execution⟩ := reached
  induction execution with
  | refl => exact watched
  | cons hstep _ ih => exact ih (watched.step begins hstep).1

end Steps

end Machine

end PdfContent
