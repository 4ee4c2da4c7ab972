import PdfContent.Interpreter.Page

/-!
# Nested streams leave the state as they found it

A nested stream is entered by putting the path on the stash and counting the depth up; it is left by
counting down and taking the top of the stash back. So the caller gets its own state back only if
the stream leaves depth and stash as it found them. Operators cannot touch either: an action changes
the context alone, and where it has a stream run, that stream has to restore the state in its turn.

The argument is an induction on the number of levels. Inside a level it goes along the action of an
operator, and from operator to operator along the tokens, wherever the stream ends: at the end of
its content, at a fault, or at an operator that restores more than was saved.
-/

namespace PdfContent

variable {K σ : Type}

/-- Depth and stash of a state are those of another one. What streams are being run around an
operator determines no more than these two. -/
structure RunState.SameLevel (s t : RunState K σ) : Prop where
  depth : t.depth = s.depth
  stash : t.stash = s.stash

namespace RunState.SameLevel

theorem refl (s : RunState K σ) : s.SameLevel s := ⟨rfl, rfl⟩

theorem trans {s t u : RunState K σ} (first : s.SameLevel t) (second : t.SameLevel u) :
    s.SameLevel u :=
  ⟨second.depth.trans first.depth, second.stash.trans first.stash⟩

theorem updateContext (s : RunState K σ) (f : Context K σ → Context K σ) :
    s.SameLevel (s.updateContext f) := ⟨rfl, rfl⟩

theorem setIndex (s : RunState K σ) (index : Nat) : s.SameLevel { s with index } := ⟨rfl, rfl⟩

/-- A stream that has kept the level on which it was entered can be left. -/
theorem leave {s t : RunState K σ} {setup : GraphicsState K σ → GraphicsState K σ}
    (level : (s.enter setup).SameLevel t) : t.leave s.park = s :=
  RunState.leave_park level.depth level.stash

end RunState.SameLevel

/-- Running a nested stream, with whatever result, gives the caller's state back. -/
def NestedRun.Restores (nested : NestedRun K σ) : Prop :=
  ∀ content scope setup s, (nested content scope setup s).state = s

/-- An action keeps depth and stash, since all that it changes by itself is the context. -/
theorem Action.sameLevel_run {α : Type} {nested : NestedRun K σ} (restores : nested.Restores)
    (environment : RunState K σ → Environment K σ) (x : Action K σ α) (s : RunState K σ) :
    s.SameLevel (x.run environment nested s).state := by
  induction x generalizing s with
  | finish result => exact .refl s
  | look next ih => exact ih _ _ s
  | change f next ih => exact (RunState.SameLevel.updateContext s f).trans (ih (s.updateContext f))
  | tell e next ih => exact ih s
  | nest content scope setup next ih =>
      have back : (nested content scope setup s).state = s := restores content scope setup s
      simp only [Action.run, Outcome.state_after, back]
      exact ih _ s

namespace StreamSettings

variable {stream : StreamSettings K σ}

theorem sameLevel_perform (restores : stream.nested.Restores) (index : Nat) (call : Call K)
    (s : RunState K σ) : s.SameLevel (stream.perform index call s).state :=
  (RunState.SameLevel.setIndex s index).trans (Action.sameLevel_run restores _ _ _)

/-- Wherever the tokens stop being run, depth and stash are as at their start. -/
theorem sameLevel_runTokens (restores : stream.nested.Restores) (fault : Option ContentError)
    (operands : List (Operand K)) (count : Nat) (s : RunState K σ) (tokens : List (Token K)) :
    s.SameLevel (stream.runTokens fault operands count s tokens).state := by
  induction tokens generalizing operands count s with
  | nil => cases fault <;> exact .refl s
  | cons token rest ih =>
      cases token with
      | operand v => exact ih _ _ s
      | operator op =>
          have here := sameLevel_perform restores count ⟨op, operands⟩ s
          simp only [runTokens]
          split
          · exact here
          · exact here.trans (ih _ _ _)

variable [Scalar K]

theorem sameLevel_run (restores : stream.nested.Restores) (content : Bytes) (s : RunState K σ) :
    s.SameLevel (stream.run content s).state :=
  sameLevel_runTokens restores _ _ _ _ _

end StreamSettings

namespace RunSettings

variable [Scalar K]

theorem restores_nestedRun (r : RunSettings K σ) (levels : Nat) :
    (r.nestedRun levels).Restores := by
  induction levels with
  | zero =>
      intro content scope setup s
      rw [nestedRun]
      split <;> rfl
  | succ levels ih =>
      intro content scope setup s
      rw [nestedRun]
      split
      · rfl
      · exact (StreamSettings.sameLevel_run ih content (s.enter setup)).leave

/-- At the depth limit nothing is run. -/
theorem nestedRun_of_limit (r : RunSettings K σ) (levels : Nat) (content : Bytes) (scope : σ)
    (setup : GraphicsState K σ → GraphicsState K σ) {s : RunState K σ}
    (limit : r.options.maxDepth ≤ s.depth) :
    r.nestedRun levels content scope setup s =
      ⟨.error (.recursionLimit r.options.maxDepth), s, []⟩ := by
  cases levels <;> simp only [nestedRun, limit, if_true]

/-- Below the limit the content is run as a stream of its own. -/
theorem nestedRun_succ_of_lt (r : RunSettings K σ) (levels : Nat) (content : Bytes) (scope : σ)
    (setup : GraphicsState K σ → GraphicsState K σ) {s : RunState K σ}
    (below : s.depth < r.options.maxDepth) :
    r.nestedRun (levels + 1) content scope setup s =
      let inner : StreamSettings K σ := { r with scope, nested := r.nestedRun levels }
      let o := inner.run content (s.enter setup)
      { result := o.result.mapError .fatal
        state := s
        log := .opened content (s.enter setup) :: o.log ++ [.closed o.result o.state] } := by
  have back := r.restores_nestedRun (levels + 1) content scope setup s
  simp only [nestedRun, Nat.not_le.mpr below, if_false] at back ⊢
  rw [back]

/-- A nested stream gives its caller back exactly the state that it was entered on, whatever became
of it: graphics states, text object, compatibility sections, depth, operator index, path, pending
clip and stash. This holds for the built-in tables as for any other, since no operator has a way to
reach depth or stash. -/
theorem state_nestedRun (r : RunSettings K σ) (levels : Nat) (content : Bytes) (scope : σ)
    (setup : GraphicsState K σ → GraphicsState K σ) (s : RunState K σ) :
    (r.nestedRun levels content scope setup s).state = s :=
  r.restores_nestedRun levels content scope setup s

end RunSettings

end PdfContent
