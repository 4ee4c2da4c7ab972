import PdfContent.Proofs.Faults
import PdfContent.Proofs.Telling

/-!
# What a device is told is well bracketed

Each form and each pattern cell that is begun is ended, the latest first, whether the run succeeds
or not. The depth limit bounds how many are begun at once: an operator begins one only below the
limit, and all that is begun inside belongs to the nested stream, one level deeper.

The proof goes the way of a run: a nested stream tells something bracketed, with one level less than
its caller; an operator tells this between what it begins and ends itself; then tokens, streams and,
by induction, levels.
-/

namespace PdfContent

variable {K σ : Type}

/-- The brackets of the events are closed, except for one that the value names. -/
inductive Unclosed (limit : Nat) : Option Bracket → List (Event K σ) → Prop
  | nothing {events} (bracketed : Bracketed limit events) : Unclosed limit none events
  | begun {before start inner b} (first : Bracketed limit before)
    (begins : Event.edge? start = some (.begins b)) (within : Bracketed (limit - 1) inner)
    (below : 0 < limit) : Unclosed limit (some b) (before ++ start :: inner)

namespace Unclosed

variable {limit : Nat} {opened : Option Bracket} {events more : List (Event K σ)}

/-- More that is bracketed, inside what is begun. -/
theorem append (unclosed : Unclosed limit opened events) (bracketed : Bracketed (limit - 1) more) :
    Unclosed limit opened (events ++ more) := by
  cases unclosed with
  | nothing all => exact .nothing (all.append (bracketed.mono (Nat.sub_le _ _)))
  | begun first begins within below =>
      rw [List.append_assoc, List.cons_append]
      exact .begun first begins (within.append bracketed) below

/-- One more event, if the monitor of what operators tell allows it. -/
theorem tell {env : Environment K σ} (unclosed : Unclosed limit opened events) {c : Context K σ}
    {e : Event K σ} (room : limit = env.options.maxDepth - env.place.depth)
    (allowed : (telling env).allows opened (.tell c e)) :
    Unclosed limit ((telling env).next opened (.tell c e)) (events ++ [e]) := by
  obtain ⟨_, allowed⟩ := allowed
  cases edge : e.edge? with
  | none =>
      simp only [telling, edge]
      exact unclosed.append (.quiet edge)
  | some edge' =>
      cases edge' with
      | begins b =>
          simp only [edge] at allowed
          obtain ⟨rfl, below⟩ := allowed
          cases unclosed with
          | nothing all =>
              simp only [telling, edge]
              exact .begun all edge (.nil _) (by omega)
      | ends b =>
          simp only [edge] at allowed
          subst allowed
          cases unclosed with
          | @begun before start inner _ first begins within below =>
              simp only [telling, edge]
              obtain ⟨less, rfl⟩ := Nat.exists_eq_add_of_le' below
              rw [List.append_assoc, List.cons_append]
              exact .nothing (first.append (.between begins within edge))

end Unclosed

/-- What nested streams tell that are run from a depth is bracketed, with one level less. -/
def NestedRun.Brackets (nested : NestedRun K σ) (limit depth : Nat) : Prop :=
  ∀ content scope setup s, s.depth = depth →
    Bracketed (limit - depth - 1) (Entry.events (nested content scope setup s).log)

section Actions

variable {r : RunSettings K σ} {nested : NestedRun K σ}

theorem Unclosed.keeps {env : Environment K σ} {depth : Nat} (place : env.place.depth = depth)
    (brackets : nested.Brackets env.options.maxDepth depth) :
    (telling env).Keeps nested depth fun opened _ log =>
      Unclosed (env.options.maxDepth - depth) opened (Entry.events log) where
  change opened log before after unclosed _ := unclosed
  tell opened log c e unclosed allowed := by
    rw [Entry.events_append]
    exact unclosed.tell (by rw [place]) allowed
  nest opened log content scope setup s unclosed level _ := by
    rw [Entry.events_append]
    exact unclosed.append (brackets content scope setup s level)

/-- What an action tells is bracketed, with all that is told inside it. -/
theorem Tells.bracketed {α : Type} (restores : nested.Restores) {scope : σ} {s : RunState K σ}
    (brackets : nested.Brackets r.options.maxDepth s.depth) {x : Action K σ α}
    (tells : Tells (r.environment scope s) s.toContext x) :
    Bracketed (r.options.maxDepth - s.depth)
      (Entry.events (x.run (r.environment scope) nested s).log) := by
  have stable (t : RunState K σ) (same : t.place = s.place) :
      r.environment scope t = r.environment scope s := by
    simp only [RunSettings.environment, same]
  have began : Unclosed (r.options.maxDepth - s.depth) none
      (Entry.events ([] : List (Entry K σ))) := .nothing (.nil _)
  have keeps : (telling (r.environment scope s)).Keeps nested s.depth fun opened _ log =>
      Unclosed (r.options.maxDepth - s.depth) opened (Entry.events log) :=
    Unclosed.keeps rfl brackets
  unfold Tells at tells
  obtain ⟨opened, unclosed, value, error⟩ := tells.run restores stable keeps began
  have closed : opened = none := by
    cases result : (x.run (r.environment scope) nested s).result with
    | ok a => exact value a result
    | error e => exact error e result
  rw [closed, List.nil_append] at unclosed
  cases unclosed with
  | nothing bracketed => exact bracketed

end Actions

namespace StreamSettings

variable (stream : StreamSettings K σ)

/-- One operator of a stream, with the warning about its failure. -/
theorem bracketed_perform (restores : stream.nested.Restores)
    (tells : ∀ env c call, Tells env c (stream.table.dispatch call)) (index : Nat) (call : Call K)
    (s : RunState K σ) (brackets : stream.nested.Brackets stream.options.maxDepth s.depth) :
    Bracketed (stream.options.maxDepth - s.depth)
      (Entry.events (stream.perform index call s).log) := by
  let start : RunState K σ := { s with index }
  have here : Bracketed (stream.options.maxDepth - s.depth) (Entry.events
      ((stream.table.dispatch call).run (stream.environment stream.scope) stream.nested
        start).log) :=
    Tells.bracketed (s := start) restores brackets (tells _ _ call)
  have report (s : RunState K σ) (result : Except OperatorError Unit) (limit : Nat) :
      Bracketed limit (Entry.events (stream.report call s result)) := by
    cases result with
    | ok _ => exact .nil _
    | error e =>
        simp only [RunSettings.report]
        split
        · exact .quiet rfl
        · exact .nil _
  rw [perform]
  dsimp only
  rw [Entry.events_append, Entry.events_append]
  exact (here.append (report _ _ _)).append (.nil _)

theorem bracketed_runTokens (restores : stream.nested.Restores)
    (tells : ∀ env c call, Tells env c (stream.table.dispatch call)) (fault : Option ContentError)
    (operands : List (Operand K)) (count : Nat) (s : RunState K σ)
    (brackets : stream.nested.Brackets stream.options.maxDepth s.depth) (tokens : List (Token K)) :
    Bracketed (stream.options.maxDepth - s.depth)
      (Entry.events (stream.runTokens fault operands count s tokens).log) := by
  induction tokens generalizing operands count s with
  | nil => cases fault <;> exact .nil _
  | cons token rest ih =>
      cases token with
      | operand v => exact ih _ _ s brackets
      | operator op =>
          have here := stream.bracketed_perform restores tells count ⟨op, operands⟩ s brackets
          have level := (sameLevel_perform restores count ⟨op, operands⟩ s).depth
          simp only [runTokens]
          split
          · exact here
          · rw [Outcome.log_after, Entry.events_append]
            have later := ih [] (count + 1)
              (stream.perform count ⟨op, operands⟩ s).state (level ▸ brackets)
            rw [level] at later
            exact here.append later

end StreamSettings

namespace RunSettings

variable [Scalar K] (r : RunSettings K σ)

/-- Nested streams tell something bracketed. The induction is on the number of levels. -/
theorem brackets_nestedRun (tells : ∀ env c call, Tells env c (r.table.dispatch call))
    (levels depth : Nat) : (r.nestedRun levels).Brackets r.options.maxDepth depth := by
  induction levels generalizing depth with
  | zero =>
      intro content scope setup s _
      simp only [nestedRun]
      split <;> exact .nil _
  | succ levels ih =>
      rintro content scope setup s rfl
      by_cases limit : r.options.maxDepth ≤ s.depth
      · rw [nestedRun_of_limit _ _ _ _ _ limit]
        exact .nil _
      · rw [nestedRun_succ_of_lt _ _ _ _ _ (Nat.not_le.mp limit)]
        let stream : StreamSettings K σ := { r with scope, nested := r.nestedRun levels }
        have inner := stream.bracketed_runTokens (restores_nestedRun r levels) tells
          ((Content.TokenStream.ofBytes (K := K) content).error? content.length) [] 0
          (s.enter setup) (ih _) (Content.TokenStream.ofBytes content).values
        dsimp only
        rw [Entry.events_append, Nat.sub_sub]
        exact inner.append (.nil _)

theorem bracketed_run (tells : ∀ env c call, Tells env c (r.table.dispatch call)) (content : Bytes)
    (scope : σ) (s : RunState K σ) :
    Bracketed (r.options.maxDepth - s.depth) (Entry.events (r.run content scope s).log) :=
  (r.outermost scope).bracketed_runTokens (restores_nestedRun r _) tells _ _ _ s
    (r.brackets_nestedRun tells _ _) _

/-- Whatever the content, the resources and the options are, and whatever the result is, forms and
pattern cells are told well bracketed: on a page and for a pattern cell by itself with no more
inside each other than the depth limit allows, and for an annotation with one more, the appearance.
-/
theorem graphics_wellBracketed (options : Options) (baseMatrix : Matrix K) (resolver : Resolver K σ)
    (scope : σ) :
    let r := graphics options baseMatrix resolver
    (∀ content, Event.WellBracketed options.maxDepth (Entry.events (r.page content scope).log)) ∧
      (∀ form rect, Event.WellBracketed (options.maxDepth + 1)
        (Entry.events (r.appearance form rect scope).log)) ∧
      ∀ name pattern paint, Event.WellBracketed options.maxDepth
        (Entry.events (r.tilingCell name pattern paint scope).log) := by
  intro r
  have tells : ∀ env c call, Tells env c (r.table.dispatch call) :=
    fun _ c call => Operators.tells_dispatch call c
  refine ⟨fun content => ?_, fun form rect => ?_, fun name pattern paint => ?_⟩
  · exact (r.bracketed_run tells content scope (.initial baseMatrix)).wellBracketed
  · refine Bracketed.wellBracketed ?_
    rw [appearance]
    cases form.appearanceMatrix? rect with
    | none => exact .nil _
    | some ctm =>
        let placed : RunState K σ := (RunState.initial r.baseMatrix).updateContext fun c =>
          c.updateState fun s => { s with ctm }.clipToBox form.bbox
        have inner := r.bracketed_run tells form.content (form.scope.getD scope) placed
        simp only [List.cons_append, Entry.events_event_cons, Entry.events_append]
        exact .between rfl inner rfl
  · exact (Tells.bracketed (s := .initial baseMatrix) (restores_nestedRun r _)
      (r.brackets_nestedRun tells _ _) (Operators.tells_paintCellAlone ..)).wellBracketed

end RunSettings

end PdfContent
