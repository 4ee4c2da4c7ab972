import PdfContent.State.Graphics
import PdfContent.Diagnostics

/-!
# The state of a run

A `Context` is what operators read and change. A `RunState` adds what only the running of streams
changes: how many streams surround the running one, which operator is being carried out, and the paths
that were set aside when nested streams were entered.

Entering a nested stream puts away what belongs to the stream around it. The graphics states, the text
object, the compatibility nesting and the operator's index go into a `Parked` that the caller keeps; the
path goes on the stash, and the depth is counted up. Leaving takes these back, whatever the nested stream
has made of the state in between.
-/

namespace PdfContent

/-- What operators change. -/
structure Context (K σ : Type) where
  states : StateStack K σ
  /-- The text object, while one is open. -/
  text : Option (TextObject K)
  /-- How many compatibility sections are open. -/
  compatibility : Nat
  path : PathBuilder K
  /-- The rule of a clip that takes effect when the path is painted. -/
  pendingClip : Option FillRule

namespace Context

variable {K σ : Type} [Scalar K]

/-- The context that a page starts with. -/
def initial (ctm : Matrix K) : Context K σ where
  states := .ofState (.initial ctm)
  text := none
  compatibility := 0
  path := .empty
  pendingClip := none

omit [Scalar K] in
/-- The current graphics state. -/
def state (c : Context K σ) : GraphicsState K σ := c.states.current

omit [Scalar K] in
/-- Changes the current graphics state. -/
def updateState (c : Context K σ) (f : GraphicsState K σ → GraphicsState K σ) : Context K σ :=
  { c with states := c.states.update f }

omit [Scalar K] in
def inCompatibilitySection (c : Context K σ) : Bool := 0 < c.compatibility

omit [Scalar K] in
@[simp] theorem state_updateState (c : Context K σ) (f : GraphicsState K σ → GraphicsState K σ) :
    (c.updateState f).state = f c.state := rfl

end Context

/-- An operator of a stream: how many streams surround that stream, and the place of the operator
among the stream's operators. -/
structure Place where
  depth : Nat
  index : Nat
  deriving DecidableEq, Repr

structure RunState (K σ : Type) extends Context K σ where
  /-- How many streams surround the running one. -/
  depth : Nat
  /-- The place of the latest operator among the operators of its stream. -/
  index : Nat
  /-- The paths and pending clips of the surrounding streams, innermost first. -/
  stash : List (PathBuilder K × Option FillRule)

/-- What the caller of a nested stream keeps while the stream runs. -/
structure Parked (K σ : Type) where
  states : StateStack K σ
  text : Option (TextObject K)
  compatibility : Nat
  index : Nat

namespace RunState

variable {K σ : Type} [Scalar K]

/-- The state that a run starts with. -/
def initial (ctm : Matrix K) : RunState K σ := ⟨.initial ctm, 0, 0, []⟩

/-- The state for another run on the same device. A path that was left unpainted stays. -/
def reset (s : RunState K σ) (ctm : Matrix K) : RunState K σ :=
  { s with
    states := .ofState (.initial ctm)
    text := none
    compatibility := 0
    depth := 0
    index := 0 }

omit [Scalar K] in
def place (s : RunState K σ) : Place := ⟨s.depth, s.index⟩

omit [Scalar K] in
/-- Changes what operators can change. -/
def updateContext (s : RunState K σ) (f : Context K σ → Context K σ) : RunState K σ :=
  { s with toContext := f s.toContext }

omit [Scalar K] in
/-- Puts the path and the pending clip on the stash. -/
def suspend (s : RunState K σ) : RunState K σ :=
  { s with
    path := .empty
    pendingClip := none
    stash := (s.path, s.pendingClip) :: s.stash }

omit [Scalar K] in
/-- Takes the latest path and pending clip back from the stash. -/
def resume (s : RunState K σ) : RunState K σ :=
  match s.stash with
  | [] => s
  | (path, pendingClip) :: stash => { s with path, pendingClip, stash }

omit [Scalar K] in
def park (s : RunState K σ) : Parked K σ := ⟨s.states, s.text, s.compatibility, s.index⟩

omit [Scalar K] in
/-- The state of a nested stream, whose first graphics state is made from the current one. -/
def enter (s : RunState K σ) (setup : GraphicsState K σ → GraphicsState K σ) : RunState K σ :=
  { s.suspend with
    states := s.states.nested.update setup
    text := none
    compatibility := 0
    depth := s.depth + 1 }

omit [Scalar K] in
/-- The state of the caller when a nested stream has ended. -/
def leave (s : RunState K σ) (parked : Parked K σ) : RunState K σ :=
  { s with
    states := parked.states
    text := parked.text
    compatibility := parked.compatibility
    depth := s.depth - 1
    index := parked.index }.resume

omit [Scalar K]

@[simp] theorem toContext_updateContext (s : RunState K σ) (f : Context K σ → Context K σ) :
    (s.updateContext f).toContext = f s.toContext := rfl

@[simp] theorem depth_updateContext (s : RunState K σ) (f : Context K σ → Context K σ) :
    (s.updateContext f).depth = s.depth := rfl

@[simp] theorem index_updateContext (s : RunState K σ) (f : Context K σ → Context K σ) :
    (s.updateContext f).index = s.index := rfl

@[simp] theorem stash_updateContext (s : RunState K σ) (f : Context K σ → Context K σ) :
    (s.updateContext f).stash = s.stash := rfl

@[simp] theorem depth_enter (s : RunState K σ) (setup : GraphicsState K σ → GraphicsState K σ) :
    (s.enter setup).depth = s.depth + 1 := rfl

@[simp] theorem stash_enter (s : RunState K σ) (setup : GraphicsState K σ → GraphicsState K σ) :
    (s.enter setup).stash = (s.path, s.pendingClip) :: s.stash := rfl

/-- Leaving restores the caller's state exactly if the nested stream has kept the depth and the stash as
they were when it was entered; the rest comes from what the caller has parked. -/
theorem leave_park {s t : RunState K σ} (depth : t.depth = s.depth + 1)
    (stash : t.stash = (s.path, s.pendingClip) :: s.stash) : t.leave s.park = s := by
  simp only [leave, resume, park, stash, depth, Nat.add_sub_cancel]

end RunState

end PdfContent
