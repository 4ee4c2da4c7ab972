import PdfContent.Proofs.Manner

/-!
# Actions above saved states

An operator other than `Q` does not look at the states that are saved below the current one.
`Framed` says so for two actions, one in a context, the other in the same context with more states
saved below: they come to the same result, leave contexts that differ in those states only, and tell
the device the same. The second action may be at another place in the run, which shows in warnings
and nowhere else.

Both are compared as long as no nested stream is asked for. `Action.alone` is what an action comes
to by itself, and is none where it asks for one.
-/

namespace PdfContent

variable {K σ α β : Type}

/-- Whether the event is about the run and not about what is painted. -/
def Event.isWarning : Event K σ → Bool
  | .warning _ => true
  | _ => false

/-- What the device is told, without warnings. -/
def Event.callbacks (events : List (Event K σ)) : List (Event K σ) :=
  events.filter fun e => !e.isWarning

namespace Event

@[simp] theorem callbacks_nil : callbacks ([] : List (Event K σ)) = [] := rfl

@[simp] theorem callbacks_append (a b : List (Event K σ)) :
    callbacks (a ++ b) = callbacks a ++ callbacks b :=
  List.filter_append _ _

end Event

namespace Entry

/-- The callbacks of a log in order. -/
def callbacks (log : List (Entry K σ)) : List (Event K σ) := Event.callbacks (events log)

@[simp] theorem callbacks_nil : callbacks ([] : List (Entry K σ)) = [] := rfl

@[simp] theorem callbacks_append (a b : List (Entry K σ)) :
    callbacks (a ++ b) = callbacks a ++ callbacks b := by
  simp [callbacks]

/-- A mark between the events is no callback. -/
theorem callbacks_cons_of_mark {x : Entry K σ} (mark : x.event? = none) (log : List (Entry K σ)) :
    callbacks (x :: log) = callbacks log := by
  simp [callbacks, events, mark]

@[simp] theorem callbacks_map_event (told : List (Event K σ)) :
    callbacks (told.map Entry.event) = Event.callbacks told := by
  have events : events (told.map Entry.event) = told := by
    induction told with
    | nil => rfl
    | cons e rest ih => rw [List.map_cons, events_event_cons, ih]
  rw [callbacks, events]

/-- The entry marks the beginning of a nested stream. -/
def isOpening : Entry K σ → Bool
  | .opened _ _ => true
  | _ => false

end Entry

/-- The context with more states saved below those that are. -/
def Context.above (c : Context K σ) (below : List (GraphicsState K σ)) : Context K σ :=
  { c with states := ⟨c.states.current, c.states.saved ++ below⟩ }

@[simp] theorem Context.text_above (c : Context K σ) (below : List (GraphicsState K σ)) :
    (c.above below).text = c.text := rfl

@[simp] theorem Context.path_above (c : Context K σ) (below : List (GraphicsState K σ)) :
    (c.above below).path = c.path := rfl

/-- What an action comes to without nested streams. -/
structure Alone (K σ α : Type) where
  result : Except OperatorError α
  context : Context K σ
  told : List (Event K σ)

/-- The same with something told before it. -/
def Alone.after (o : Alone K σ α) (told : List (Event K σ)) : Alone K σ α :=
  { o with told := told ++ o.told }

/-- What follows on an action; an error stays. -/
def Alone.andThen (o : Alone K σ β) (f : β → Context K σ → Option (Alone K σ α)) :
    Option (Alone K σ α) :=
  match o.result with
  | .ok b => (f b o.context).map fun later => later.after o.told
  | .error e => some ⟨.error e, o.context, o.told⟩

namespace Action

/-- What an action comes to by itself; none if it asks for a nested stream. -/
def alone (env : Environment K σ) : Action K σ α → Context K σ → Option (Alone K σ α)
  | .finish result, c => some ⟨result, c, []⟩
  | .look next, c => (next env c).alone env c
  | .change f next, c => next.alone env (f c)
  | .tell e next, c => (next.alone env c).map fun o => o.after [e]
  | .nest .., _ => none

section Alone

variable {env : Environment K σ} {c : Context K σ}

theorem alone_bind (x : Action K σ β) (f : β → Action K σ α) :
    (x >>= f).alone env c =
      (x.alone env c).bind fun o => o.andThen fun b c => (f b).alone env c := by
  change (x.bind f).alone env c = _
  induction x generalizing c with
  | finish result =>
      cases result with
      | error e => rfl
      | ok a =>
          simp only [bind, alone, Option.bind_some, Alone.andThen]
          cases (f a).alone env c <;> rfl
  | look next ih => exact ih _ _
  | change g next ih => exact ih
  | tell e next ih =>
      simp only [bind, alone, ih]
      cases next.alone env c with
      | none => rfl
      | some o =>
          obtain ⟨result, c', told⟩ := o
          cases result with
          | error e => rfl
          | ok b =>
              simp only [Option.bind_some, Option.map_some, Alone.andThen, Alone.after]
              cases (f b).alone env c' <;> simp
  | nest content scope setup next ih => rfl

/-- What is done in any case comes too late if a nested stream has been asked for. -/
theorem alone_andFinally_of_none {x : Action K σ α} (asks : x.alone env c = none)
    (last : Action K σ Unit) : (x.andFinally last).alone env c = none := by
  have attempt : x.attempt.alone env c = none := by
    induction x generalizing c with
    | finish result => cases asks
    | look next ih => exact ih _ _ asks
    | change f next ih => exact ih asks
    | tell e next ih => exact Option.map_eq_none_iff.mpr (ih (Option.map_eq_none_iff.mp asks))
    | nest content scope setup next ih => rfl
  rw [andFinally, alone_bind, attempt, Option.bind_none]

variable {nested : NestedRun K σ} {environment : RunState K σ → Environment K σ} {x : Action K σ α}
  {s : RunState K σ}

/-- What an action comes to by itself is what its run leaves. -/
theorem run_of_alone {o : Alone K σ α} (stable : ∀ t, t.place = s.place → environment t = env)
    (alone : x.alone env s.toContext = some o) :
    x.run environment nested s =
      ⟨o.result, { s with toContext := o.context }, o.told.map Entry.event⟩ := by
  induction x generalizing s o with
  | finish result =>
      cases alone
      rfl
  | look next ih =>
      have here : environment s = env := stable s rfl
      simp only [run, here]
      exact ih _ _ stable alone
  | change f next ih =>
      have stable : ∀ t, t.place = (s.updateContext f).place → environment t = env := stable
      exact ih stable alone
  | tell e next ih =>
      obtain ⟨later, rest, rfl⟩ := Option.map_eq_some_iff.mp alone
      simp only [run, ih stable rest]
      rfl
  | nest content scope setup next ih => cases alone

/-- An action that asks for a nested stream has it opened, where streams are opened. -/
theorem opening_of_alone (stable : ∀ t, t.place = s.place → environment t = env)
    (opens : ∀ content scope setup t, t.depth = s.depth →
      ∃ mark ∈ (nested content scope setup t).log, mark.isOpening)
    (asks : x.alone env s.toContext = none) :
    ∃ mark ∈ (x.run environment nested s).log, mark.isOpening := by
  induction x generalizing s with
  | finish result => cases asks
  | look next ih =>
      have here : environment s = env := stable s rfl
      simp only [run, here]
      exact ih _ _ stable opens asks
  | change f next ih =>
      have stable : ∀ t, t.place = (s.updateContext f).place → environment t = env := stable
      exact ih stable opens asks
  | tell e next ih =>
      obtain ⟨mark, mem, opening⟩ := ih stable opens (Option.map_eq_none_iff.mp asks)
      exact ⟨mark, List.mem_append_right _ mem, opening⟩
  | nest content scope setup next ih =>
      obtain ⟨mark, mem, opening⟩ := opens content scope setup s rfl
      exact ⟨mark, List.mem_append_left _ mem, opening⟩

end Alone

end Action

/-- What two actions come to, the second in the context of the first above more saved states. -/
structure Alone.Framed (below : List (GraphicsState K σ)) (o o' : Alone K σ α) : Prop where
  result : o'.result = o.result
  isLocal : LocalResult o.result
  context : o'.context = o.context.above below
  told : Event.callbacks o'.told = Event.callbacks o.told

/-- If the second action does not ask for a nested stream above the saved states and at its place,
the first one does the same, and keeps what is saved. -/
def Action.Framed (env : Environment K σ) (place : Place) (below : List (GraphicsState K σ))
    (c : Context K σ) (x y : Action K σ α) : Prop :=
  ∀ o', y.alone { env with place } (c.above below) = some o' → ∃ o, x.alone env c = some o ∧
    o.Framed below o' ∧ o.context.states.saved = c.states.saved

namespace Action.Framed

variable {env : Environment K σ} {place : Place} {below : List (GraphicsState K σ)}
  {c : Context K σ} {x y : Action K σ α}

/-- Nothing is said where the second action asks for a nested stream. -/
theorem asks (asks : y.alone { env with place } (c.above below) = none) :
    Framed env place below c x y := by
  intro o' alone
  cases asks.symm.trans alone

theorem finish {result : Except OperatorError α} (isLocal : LocalResult result) :
    Framed env place below c (ofExcept result : Action K σ α) (ofExcept result) := by
  rintro _ ⟨⟩
  exact ⟨_, rfl, ⟨rfl, isLocal, rfl, rfl⟩, rfl⟩

theorem pure (a : α) : Framed env place below c (Pure.pure a : Action K σ α) (Pure.pure a) :=
  finish (.ok a)

theorem throw {e : OperatorError} (isLocal : e.IsLocal) :
    Framed env place below c (MonadExcept.throw e : Action K σ α) (MonadExcept.throw e) :=
  finish (.error isLocal)

/-- Two parts of actions in turn. -/
theorem bind {x y : Action K σ β} {f g : β → Action K σ α} (first : Framed env place below c x y)
    (second : ∀ b c, Framed env place below c (f b) (g b)) :
    Framed env place below c (x >>= f) (y >>= g) := by
  intro o' alone
  rw [alone_bind] at alone
  obtain ⟨flat, here, later⟩ := Option.bind_eq_some_iff.mp alone
  obtain ⟨deep, here', framed, saved⟩ := first flat here
  rw [alone_bind, here', Option.bind_some]
  obtain ⟨result, isLocal, context, told⟩ := framed
  simp only [Alone.andThen, result, context] at later ⊢
  cases ended : deep.result with
  | error e =>
      simp only [ended, Option.some.injEq] at later ⊢
      subst later
      exact ⟨_, rfl, ⟨rfl, .error (isLocal e ended), rfl, told⟩, saved⟩
  | ok b =>
      simp only [ended] at later ⊢
      obtain ⟨flat', rest, rfl⟩ := Option.map_eq_some_iff.mp later
      obtain ⟨deep', rest', framed', saved'⟩ := second b _ flat' rest
      refine ⟨_, Option.map_eq_some_iff.mpr ⟨deep', rest', rfl⟩, ?_, saved'.trans saved⟩
      refine ⟨framed'.result, framed'.isLocal, framed'.context, ?_⟩
      simp only [Alone.after, Event.callbacks_append, told, framed'.told]

/-- Reads something that may be missing. -/
theorem read {result : Except OperatorError β} {f g : β → Action K σ α}
    (isLocal : LocalResult result)
    (value : ∀ b, result = .ok b → Framed env place below c (f b) (g b)) :
    Framed env place below c (ofExcept result >>= f) (ofExcept result >>= g) := by
  cases result with
  | error e => exact throw (isLocal e rfl)
  | ok b => exact value b rfl

theorem environment {f g : Environment K σ → Action K σ α}
    (next : Framed env place below c (f env) (g { env with place })) :
    Framed env place below c (Action.environment >>= f) (Action.environment >>= g) := next

theorem context {f g : Context K σ → Action K σ α}
    (next : Framed env place below c (f c) (g (c.above below))) :
    Framed env place below c (Action.context >>= f) (Action.context >>= g) := next

theorem state {f g : GraphicsState K σ → Action K σ α}
    (next : Framed env place below c (f c.state) (g c.state)) :
    Framed env place below c (Action.state >>= f) (Action.state >>= g) := next

/-- A change that is the same above more saved states, and keeps what is saved. -/
theorem modify {f : Context K σ → Context K σ} (above : f (c.above below) = (f c).above below)
    (saved : (f c).states.saved = c.states.saved) :
    Framed env place below c (Action.modify f) (Action.modify f) := by
  rintro _ ⟨⟩
  exact ⟨_, rfl, ⟨rfl, .ok (), above, rfl⟩, saved⟩

theorem updateState (f : GraphicsState K σ → GraphicsState K σ) :
    Framed env place below c (Action.updateState f) (Action.updateState f) :=
  modify rfl rfl

theorem emit (e : Event K σ) : Framed env place below c (Action.emit e) (Action.emit e) := by
  rintro _ ⟨⟩
  exact ⟨_, rfl, ⟨rfl, .ok (), rfl, rfl⟩, rfl⟩

/-- Warnings may differ. -/
theorem warn (w w' : Warning) :
    Framed env place below c (Action.warn w : Action K σ Unit) (Action.warn w') := by
  refine environment ?_
  dsimp only
  split
  · rintro _ ⟨⟩
    exact ⟨_, rfl, ⟨rfl, .ok (), rfl, rfl⟩, rfl⟩
  · exact pure ()

theorem warnAt (keyword description : String) (code : WarningCode) :
    Framed env place below c (Action.warnAt keyword code description : Action K σ Unit)
      (Action.warnAt keyword code description) :=
  environment (warn _ _)

end Action.Framed

end PdfContent
