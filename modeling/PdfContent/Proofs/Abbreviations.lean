import PdfContent.Proofs.CompoundText
import PdfContent.Proofs.Faults
import PdfContent.Proofs.Inlining
import PdfContent.Proofs.MatchingTable

/-!
# Operators that are short for others

Six operators of the table for painting stand for others, and content may as well have those. Then
the steps are dispatched by the stream, each with operands and an index of its own, and a step that
fails does not keep the ones after it from being carried out.

It makes no difference, wherever in the content and in the resources it is done. Most first steps
cannot fail. The one that can is `T*` where no text object is open; there `Tj` after it fails, too,
before it has done anything. The proof goes from the steps of one operator along the operators of a
stream and, by induction on the levels, to nested streams.
-/

namespace PdfContent

variable {K σ α : Type}

/-! ### Content written out -/

section Content

variable [Scalar K]

/-- An operator with operands of the right number and types, and the operators that it is short for.
The vertical distance is given the other way around as leading. -/
inductive Call.Abbreviates : Call K → List (Call K) → Prop
  | stroke (operands : List (Operand K)) :
    Abbreviates ⟨.plain "s", operands⟩ [⟨.plain "h", operands⟩, ⟨.plain "S", []⟩]
  | fillStroke (operands : List (Operand K)) :
    Abbreviates ⟨.plain "b", operands⟩ [⟨.plain "h", operands⟩, ⟨.plain "B", []⟩]
  | fillStrokeEvenOdd (operands : List (Operand K)) :
    Abbreviates ⟨.plain "b*", operands⟩ [⟨.plain "h", operands⟩, ⟨.plain "B*", []⟩]
  | showText {v : Operand K} {bytes : Bytes} (string : v.bytes? = some bytes) :
    Abbreviates ⟨.plain "'", [v]⟩ [⟨.plain "T*", []⟩, ⟨.plain "Tj", [v]⟩]
  | showTextSpaced {word char v : Operand K} {aw ac : K} {bytes : Bytes}
    (wordSpacing : word.number? = some aw) (charSpacing : char.number? = some ac)
    (string : v.bytes? = some bytes) :
    Abbreviates ⟨.plain "\"", [word, char, v]⟩
      [⟨.plain "Tw", [word]⟩, ⟨.plain "Tc", [char]⟩, ⟨.plain "'", [v]⟩]
  | moveText {x y leading : Operand K} {tx ty : K} (horizontal : x.number? = some tx)
    (vertical : y.number? = some ty) (opposite : leading.number? = some (-ty)) :
    Abbreviates ⟨.plain "TD", [x, y]⟩ [⟨.plain "TL", [leading]⟩, ⟨.plain "Td", [x, y]⟩]

namespace Content

/-- Operators, and the same operators with some of them written out. -/
inductive WrittenOut : List (Call K) → List (Call K) → Prop
  | nil : WrittenOut [] []
  | keep (call : Call K) {calls calls' : List (Call K)} (rest : WrittenOut calls calls') :
    WrittenOut (call :: calls) (call :: calls')
  | write {call : Call K} {steps : List (Call K)} (abbreviates : call.Abbreviates steps)
    {calls calls' : List (Call K)} (rest : WrittenOut calls calls') :
    WrittenOut (call :: calls) (steps ++ calls')

/-- The operators of content. -/
def callsOf (content : Bytes) : List (Call K) := calls [] (TokenStream.ofBytes content).values

variable (K) in
/-- Some of the operators of content are written out in other content. Both can be read to the end,
or both end by a fault. -/
structure WritesOut (content content' : Bytes) : Prop where
  calls : WrittenOut (K := K) (callsOf content) (callsOf content')
  fault : (fault? K content).isSome = (fault? K content').isSome

theorem WrittenOut.refl (calls : List (Call K)) : WrittenOut calls calls := by
  induction calls with
  | nil => exact .nil
  | cons call rest ih => exact .keep call ih

theorem WritesOut.refl (content : Bytes) : WritesOut K content content := ⟨.refl _, rfl⟩

end Content

end Content

/-! ### Operators in a stream -/

namespace Outcome

/-- What an operator comes to in its stream: an error is how the stream ends, if it ends there. -/
def inStream (o : Outcome OperatorError K σ Unit) :
    Outcome (Except ContentError Unit) K σ Unit where
  result :=
    match o.state.ending? o.result with
    | some ending => .error ending
    | none => .ok ()
  state := o.state
  log := o.log

theorem inStream_of_some {o : Outcome OperatorError K σ Unit} {ending : Except ContentError Unit}
    (ends : o.state.ending? o.result = some ending) :
    o.inStream = ⟨.error ending, o.state, o.log⟩ := by
  simp only [inStream, ends]

theorem inStream_of_none {o : Outcome OperatorError K σ Unit}
    (goesOn : o.state.ending? o.result = none) : o.inStream = ⟨.ok (), o.state, o.log⟩ := by
  simp only [inStream, goesOn]

/-- What operators come to if the content ends after them, by the fault if there is one. -/
def ended (o : Outcome (Except ContentError Unit) K σ Unit) (fault : Option ContentError) :
    Outcome ContentError K σ Unit where
  result :=
    match o.result, fault with
    | .error ending, _ => ending
    | .ok (), some e => .error e
    | .ok (), none => .ok ()
  state := o.state
  log := o.log

end Outcome

namespace StreamSettings

variable (stream : StreamSettings K σ)

/-- Carries out operators, the first of them at the place `count`, up to one that ends the stream.
-/
def carryOut (count : Nat) (s : RunState K σ) :
    List (Call K) → Outcome (Except ContentError Unit) K σ Unit
  | [] => ⟨.ok (), s, []⟩
  | call :: rest =>
    (stream.perform count call s).inStream.andThen fun _ t => carryOut (count + 1) t rest

theorem runTokens_eq_carryOut (fault : Option ContentError) (operands : List (Operand K))
    (count : Nat) (s : RunState K σ) (tokens : List (Token K)) :
    stream.runTokens fault operands count s tokens =
      (stream.carryOut count s (Content.calls operands tokens)).ended fault := by
  induction tokens generalizing operands count s with
  | nil => cases fault <;> rfl
  | cons token rest ih =>
      cases token with
      | operand v => exact ih _ _ _
      | operator op =>
          simp only [runTokens, Content.calls, carryOut]
          split
          next result ending =>
            rw [Outcome.inStream_of_some ending]
            rfl
          next goesOn =>
            rw [Outcome.inStream_of_none goesOn, ih]
            rfl

theorem carryOut_append (count : Nat) (s : RunState K σ) (first second : List (Call K)) :
    stream.carryOut count s (first ++ second) =
      (stream.carryOut count s first).andThen fun _ t =>
        stream.carryOut (count + first.length) t second := by
  induction first generalizing count s with
  | nil => rfl
  | cons call rest ih =>
      simp only [List.cons_append, carryOut]
      cases result : (stream.perform count call s).inStream.result with
      | error ending => simp only [Outcome.andThen_of_error result]; rfl
      | ok _ =>
          simp only [Outcome.andThen_of_ok result, ih, Outcome.after_andThen, List.length_cons,
            Nat.add_assoc, Nat.add_comm 1]

end StreamSettings

/-- If an operator fails, the operators after it are carried out without doing anything. -/
def StreamSettings.Stops (stream : StreamSettings K σ) : List (Call K) → Prop
  | [] => True
  | call :: rest =>
    (∀ count s e, (stream.perform count call s).result = .error e →
      let t := (stream.perform count call s).state
      ∃ log index, Entry.callbacks log = [] ∧
        stream.carryOut (count + 1) t rest = ⟨.ok (), { t with index }, log⟩) ∧
    stream.Stops rest

/-! ### Streams on variants -/

variable {ρ γ : Bytes → Bytes → Prop}

/-- A stream goes on in both runs, or it ends in both, by a fault in both or in neither. -/
inductive EndsAlike :
    Except (Except ContentError Unit) Unit → Except (Except ContentError Unit) Unit → Prop
  | goesOn : EndsAlike (.ok ()) (.ok ())
  | ends {ending ending' : Except ContentError Unit} (same : ending.isOk = ending'.isOk) :
    EndsAlike (.error ending) (.error ending')

section Outcomes

variable {o o' : Outcome OperatorError K σ Unit}

theorem RunState.Variant.ending? {s t : RunState K σ} (states : s.Variant γ t)
    {result result' : Except OperatorError Unit}
    (results : SameResult (fun _ _ => True) result result') :
    Option.Rel (fun ending ending' => ending.isOk = ending'.isOk) (s.ending? result)
      (t.ending? result') := by
  cases results with
  | ok => exact .none
  | @error e _ errors =>
      cases errors with
      | fatal cause cause' => exact .some rfl
      | same =>
          cases e with
          | fatal cause => exact .some rfl
          | emptyGraphicsStack =>
              simp only [RunState.ending?, RunState.react, states.depth]
              by_cases nested : 0 < t.depth
              · simp only [nested, if_true]
                exact .some rfl
              · simp only [nested, if_false]
                exact .none
          | _ => exact .none

theorem Outcome.Variant.inStream (variant : o.Variant γ (SameResult fun _ _ => True) o') :
    o.inStream.Variant γ EndsAlike o'.inStream where
  result := by
    have endings := variant.state.ending? variant.result
    simp only [Outcome.inStream]
    generalize o.state.ending? o.result = first at endings
    generalize o'.state.ending? o'.result = second at endings
    cases endings with
    | none => exact .goesOn
    | some same => exact .ends same
  state := variant.state
  callbacks := variant.callbacks

theorem Outcome.Variant.andThen {o o' : Outcome (Except ContentError Unit) K σ Unit}
    {f g : Unit → RunState K σ → Outcome (Except ContentError Unit) K σ Unit}
    (variant : o.Variant γ EndsAlike o')
    (later : ∀ s t, s.Variant γ t → (f () s).Variant γ EndsAlike (g () t)) :
    (o.andThen f).Variant γ EndsAlike (o'.andThen g) := by
  obtain ⟨result, s, log⟩ := o
  obtain ⟨result', t, log'⟩ := o'
  obtain ⟨ends, states, callbacks⟩ := variant
  cases ends with
  | goesOn => exact (later s t states).after callbacks
  | ends same => exact ⟨.ends same, states, callbacks⟩

theorem Outcome.Variant.ended {o o' : Outcome (Except ContentError Unit) K σ Unit}
    (variant : o.Variant γ EndsAlike o') {fault fault' : Option ContentError}
    (faults : fault.isSome = fault'.isSome) :
    (o.ended fault).Variant γ (fun result result' => result.isOk = result'.isOk)
      (o'.ended fault') where
  result := by
    have ends := variant.result
    simp only [Outcome.ended]
    generalize o.result = first at ends
    generalize o'.result = second at ends
    cases ends with
    | ends same => exact same
    | goesOn => cases fault <;> cases fault' <;> first | rfl | cases faults
  state := variant.state
  callbacks := variant.callbacks

end Outcomes

section Streams

variable [Scalar K]

/-- Two streams that carry out operators with the table for painting, on variants of the resources.
-/
structure StreamSettings.Variant (ρ γ : Bytes → Bytes → Prop)
    (stream stream' : StreamSettings K σ) : Prop where
  options : stream.options = stream'.options
  receiver : stream.receiver = stream'.receiver
  baseMatrix : stream.baseMatrix = stream'.baseMatrix
  resolver : stream.resolver.Variant ρ γ stream'.resolver
  first : stream.table = Operators.graphicsTable
  second : stream'.table = Operators.graphicsTable
  scope : stream.scope = stream'.scope
  nested : stream.nested.Variant ρ γ stream'.nested
  /-- Glyph procedures are run as nested streams, too. -/
  glyphs : ∀ a b, γ a b → ρ a b

namespace StreamSettings.Variant

variable {stream stream' : StreamSettings K σ} (streams : stream.Variant ρ γ stream')
  {s t : RunState K σ} (states : s.Variant γ t)

include streams states

theorem run {V : α → α → Prop} {x y : Action K σ α} (related : Action.Matches ρ γ V x y) :
    (x.run (stream.environment stream.scope) stream.nested s).Variant γ (SameResult V)
      (y.run (stream'.environment stream'.scope) stream'.nested t) :=
  related.run streams.nested (fun _ _ states =>
    ⟨streams.options, streams.receiver, streams.baseMatrix, streams.resolver, streams.scope,
      states.depth⟩) states

/-- An operator that is carried out by itself and one that is a step of another operator. -/
theorem dispatch_perform (count : Nat) (call : Call K) :
    ((Operators.graphicsTable.dispatch call).run (stream.environment stream.scope) stream.nested
      s).Variant γ (SameResult fun _ _ => True) (stream'.perform count call t) := by
  have indexed : s.Variant γ { t with index := count } := ⟨states.context, states.depth⟩
  have here := streams.run indexed (Operators.matches_dispatch streams.glyphs call)
  rw [← streams.second] at here ⊢
  obtain ⟨log, performed, callbacks⟩ := StreamSettings.perform_of_run
    (rfl : (stream'.table.dispatch call).run (stream'.environment stream'.scope) stream'.nested
      { t with index := count } = _)
  rw [performed]
  exact ⟨here.result, here.state, callbacks ▸ here.callbacks⟩

theorem perform (count count' : Nat) (call : Call K) :
    (stream.perform count call s).Variant γ (SameResult fun _ _ => True)
      (stream'.perform count' call t) := by
  have indexed : ({ s with index := count } : RunState K σ).Variant γ t :=
    ⟨states.context, states.depth⟩
  have here := streams.dispatch_perform indexed count' call
  rw [← streams.first] at here
  obtain ⟨log, performed, callbacks⟩ := StreamSettings.perform_of_run
    (rfl : (stream.table.dispatch call).run (stream.environment stream.scope) stream.nested
      { s with index := count } = _)
  rw [performed]
  exact ⟨here.result, here.state, callbacks ▸ here.callbacks⟩

/-- Steps that are carried out as one operator, and by the stream one after another. The induction
is on the steps: after one that fails, those that the stream goes on with do nothing. -/
theorem forM_carryOut {steps : List (Call K)} (stops : stream'.Stops steps) (count : Nat) :
    ((steps.forM Operators.graphicsTable.dispatch).run (stream.environment stream.scope)
      stream.nested s).inStream.Variant γ EndsAlike (stream'.carryOut count t steps) := by
  induction steps generalizing s t count with
  | nil => exact ⟨.goesOn, states, .nil⟩
  | cons call rest ih =>
      obtain ⟨quits, stops⟩ := stops
      have here := streams.dispatch_perform states count call
      have quits := quits count t
      rw [List.forM_eq_forM, List.forM_cons, Action.run_bind]
      simp only [StreamSettings.carryOut]
      generalize (Operators.graphicsTable.dispatch call).run (stream.environment stream.scope)
        stream.nested s = o at here
      generalize stream'.perform count call t = o' at here quits
      obtain ⟨result, s', log⟩ := o
      obtain ⟨result', t', log'⟩ := o'
      have inStream := here.inStream
      obtain ⟨results, states', callbacks⟩ := here
      cases results with
      | ok => exact (ih states' stops (count + 1)).after callbacks
      | @error e e' errors =>
          rw [Outcome.andThen_of_error (o := ⟨.error e, s', log⟩) rfl]
          cases ends : t'.ending? (.error e') with
          | some ending =>
              rw [Outcome.inStream_of_some (o := ⟨.error e', t', log'⟩) ends] at inStream ⊢
              exact inStream
          | none =>
              obtain ⟨silent, index, told, nothing⟩ := quits e' rfl
              rw [Outcome.inStream_of_none (o := ⟨.error e', t', log'⟩) ends] at inStream ⊢
              rw [Outcome.andThen_of_ok (o := ⟨.ok (), t', log'⟩) rfl, nothing]
              refine ⟨inStream.result, ⟨inStream.state.context, inStream.state.depth⟩, ?_⟩
              rw [Outcome.log_after, Entry.callbacks_append, told, List.append_nil]
              exact inStream.callbacks

end StreamSettings.Variant

end Streams

/-! ### The steps of abbreviations -/

section Abbreviations

variable [Scalar K]

namespace Operators

section Shared

variable {keyword : String} {minOperands : Nat}

/-- However many links are left, an operator with an action of its own is carried out by that. -/
theorem dispatchWithin_eq_dispatch {run : Call K → Action K σ Unit}
    (mem : entry keyword minOperands run ∈ sharedEntries) {operands : List (Operand K)}
    (enough : minOperands ≤ operands.length) (links : Nat) :
    (graphicsTable (σ := σ)).dispatchWithin links ⟨.plain keyword, operands⟩ =
      graphicsTable.dispatch ⟨.plain keyword, operands⟩ := by
  rw [OperatorTable.dispatch, dispatchWithin_shared (.inl rfl) mem rfl enough,
    dispatchWithin_shared (.inl rfl) mem rfl enough]

theorem dispatchWithin_textSetter {set : K → TextState K σ → TextState K σ}
    (mem : textSetter keyword set ∈ sharedEntries) {v : Operand K} {x : K}
    (given : v.number? = some x) (links : Nat) :
    (graphicsTable (σ := σ)).dispatchWithin links ⟨.plain keyword, [v]⟩ =
      Action.updateText (set x) := by
  rw [dispatchWithin_shared (.inl rfl) mem rfl (Nat.le_add_left 1 _)]
  simp only [number_cons, given]
  rfl

theorem dispatch_textSetter {set : K → TextState K σ → TextState K σ}
    (mem : textSetter keyword set ∈ sharedEntries) {v : Operand K} {x : K}
    (given : v.number? = some x) :
    (graphicsTable (σ := σ)).dispatch ⟨.plain keyword, [v]⟩ = Action.updateText (set x) :=
  dispatchWithin_textSetter mem given _

end Shared

theorem dispatch_stroke {keyword next : String} (painting : Painting)
    (closes : closeThen keyword next ∈ pathPaintingEntries (K := K) (σ := σ))
    (paints : entry next 0 (finishPath painting) ∈ pathPaintingEntries (K := K) (σ := σ))
    (operands : List (Operand K)) :
    (graphicsTable (σ := σ)).dispatch ⟨.plain keyword, operands⟩ =
      List.forM [⟨.plain "h", operands⟩, ⟨.plain next, []⟩] graphicsTable.dispatch := by
  have listed {e : TableEntry K (Action K σ)} (mem : e ∈ pathPaintingEntries) :
      e ∈ sharedEntries ++ paintingEntries := by
    simp only [paintingEntries, List.mem_append, mem, or_true, true_or]
  have found := find?_graphicsTable_of_mem (listed closes)
  have goesOn := find?_graphicsTable_of_mem (listed paints)
  rw [dispatch_closeThen found goesOn]
  simp only [List.forM_eq_forM, List.forM_cons, List.forM_nil, bind_pure_unit]
  have first : (graphicsTable (σ := σ)).dispatch ⟨.plain "h", operands⟩ =
      closePath (⟨.plain "h", operands⟩ : Call K) :=
    OperatorTable.dispatch_of_action find?_closePath (Nat.zero_le _)
  have second : (graphicsTable (σ := σ)).dispatch ⟨.plain next, []⟩ =
      finishPath painting (⟨.plain next, []⟩ : Call K) :=
    OperatorTable.dispatch_of_action goesOn (Nat.zero_le _)
  rw [first, second]
  rfl

theorem dispatch_showText (v : Operand K) (links : Nat) :
    (graphicsTable (σ := σ)).dispatchWithin (links + 1) ⟨.plain "'", [v]⟩ =
      List.forM [⟨.plain "T*", []⟩, ⟨.plain "Tj", [v]⟩] graphicsTable.dispatch := by
  have enough : 1 ≤ [v].length := Nat.le_refl 1
  rw [dispatchWithin_shared_of_sequence (.inl rfl) mem_nextLineShowText rfl enough]
  simp only [nextLineShowText, List.forM_eq_forM, List.forM_cons, List.forM_nil,
    List.take_succ_cons, List.take_zero, dispatchWithin_eq_dispatch mem_nextLine (Nat.zero_le _),
    dispatchWithin_eq_dispatch mem_showText enough]

/-- Carrying out an operator is carrying out what it is short for. -/
theorem dispatch_of_abbreviates {call : Call K} {steps : List (Call K)}
    (abbreviates : call.Abbreviates steps) :
    (graphicsTable (σ := σ)).dispatch call = steps.forM graphicsTable.dispatch := by
  cases abbreviates with
  | stroke operands =>
      exact dispatch_stroke .stroke (by simp [pathPaintingEntries])
        (by simp [pathPaintingEntries]) operands
  | fillStroke operands =>
      exact dispatch_stroke (.fillStroke .nonZero) (by simp [pathPaintingEntries])
        (by simp [pathPaintingEntries]) operands
  | fillStrokeEvenOdd operands =>
      exact dispatch_stroke (.fillStroke .evenOdd) (by simp [pathPaintingEntries])
        (by simp [pathPaintingEntries]) operands
  | showText => exact dispatch_showText _ _
  | @showTextSpaced word char v aw ac bytes wordSpacing charSpacing =>
      have enough : 3 ≤ [word, char, v].length := Nat.le_refl 3
      have within : (graphicsTable (σ := σ)).dispatch ⟨.plain "\"", [word, char, v]⟩ =
          List.forM [("Tw", [word]), ("Tc", [char]), ("'", [v])] fun step =>
            graphicsTable.dispatchWithin 11 ⟨.plain step.1, step.2⟩ :=
        dispatchWithin_shared_of_sequence (.inl rfl) mem_nextLineShowTextSpaced rfl enough 11
      have shows : (graphicsTable (σ := σ)).dispatchWithin 11 ⟨.plain "'", [v]⟩ =
          graphicsTable.dispatch ⟨.plain "'", [v]⟩ :=
        (dispatch_showText v 10).trans (dispatch_showText v 5).symm
      rw [within]
      simp only [List.forM_eq_forM, List.forM_cons, List.forM_nil, shows,
        dispatchWithin_textSetter mem_setWordSpacing wordSpacing,
        dispatchWithin_textSetter mem_setCharSpacing charSpacing,
        dispatch_textSetter mem_setWordSpacing wordSpacing,
        dispatch_textSetter mem_setCharSpacing charSpacing]
  | @moveText x y leading tx ty horizontal vertical opposite =>
      have enough : 2 ≤ [x, y].length := Nat.le_refl 2
      have given : moveTextSetLeading ⟨.plain "TD", [x, y]⟩ =
          .ok [("TL", [.real (-ty)]), ("Td", [x, y])] := by
        simp only [moveTextSetLeading, number_cons_cons, vertical]
        rfl
      have within : (graphicsTable (σ := σ)).dispatch ⟨.plain "TD", [x, y]⟩ =
          List.forM [("TL", [.real (-ty)]), ("Td", [x, y])] fun step =>
            graphicsTable.dispatchWithin 8 ⟨.plain step.1, step.2⟩ := by
        have steps : (graphicsTable (σ := σ)).dispatch ⟨.plain "TD", [x, y]⟩ = _ :=
          dispatchWithin_shared_of_sequence (.inl rfl) mem_moveTextSetLeading rfl enough 8
        rwa [given] at steps
      rw [within]
      simp only [List.forM_eq_forM, List.forM_cons, List.forM_nil,
        dispatchWithin_textSetter mem_setLeading (v := .real (-ty)) rfl,
        dispatchWithin_eq_dispatch mem_moveText enough, dispatch_textSetter mem_setLeading opposite]

end Operators

namespace StreamSettings

variable {stream : StreamSettings K σ} (graphics : stream.table = Operators.graphicsTable)

omit [Scalar K] in
theorem stops_last (call : Call K) : stream.Stops [call] :=
  ⟨fun count s _ _ => ⟨[], (stream.perform count call s).state.index, rfl, rfl⟩, trivial⟩

omit [Scalar K] in
/-- A step that never fails. -/
theorem Stops.cons {call : Call K} {rest : List (Call K)} (stops : stream.Stops rest)
    (succeeds : ∀ count s, (stream.perform count call s).result = .ok ()) :
    stream.Stops (call :: rest) := by
  refine ⟨fun count s e failed => ?_, stops⟩
  cases (succeeds count s).symm.trans failed

include graphics

theorem perform_closePath (operands : List (Operand K)) (count : Nat) (s : RunState K σ) :
    (stream.perform count ⟨.plain "h", operands⟩ s).result = .ok () := by
  have dispatched : stream.table.dispatch ⟨.plain "h", operands⟩ =
      Operators.closePath ⟨.plain "h", operands⟩ := by
    rw [graphics]
    exact OperatorTable.dispatch_of_action Operators.find?_closePath (Nat.zero_le _)
  simp only [perform, dispatched, Operators.closePath, Action.run_context_bind]
  split <;> rfl

theorem perform_textSetter {keyword : String} {set : K → TextState K σ → TextState K σ}
    (mem : Operators.textSetter keyword set ∈ Operators.sharedEntries) {v : Operand K} {x : K}
    (given : v.number? = some x) (count : Nat) (s : RunState K σ) :
    (stream.perform count ⟨.plain keyword, [v]⟩ s).result = .ok () := by
  simp only [perform, graphics, Operators.dispatch_textSetter mem given]
  rfl

/-- Without a text object nothing is shown. -/
theorem exists_perform_showText {v : Operand K} {bytes : Bytes} (string : v.bytes? = some bytes)
    {s : RunState K σ} (closed : s.text = none) (count : Nat) :
    ∃ log, stream.perform count ⟨.plain "Tj", [v]⟩ s =
        ⟨.error (.outsideTextObject "Tj"), { s with index := count }, log⟩ ∧
      Entry.callbacks log = [] := by
  refine perform_of_run (o := ⟨.error (.outsideTextObject "Tj"), { s with index := count }, []⟩) ?_
  rw [graphics, OperatorTable.dispatch,
    Operators.dispatchWithin_shared (.inl rfl) Operators.mem_showText rfl (Nat.le_add_left 1 _),
    Operators.showText, Operators.string_cons]
  simp only [string, Action.run_ok_bind, Operators.showString]
  exact Operators.run_textObject_bind_of_none (s := { s with index := count }) closed "Tj" _

/-- Without a text object there is no next line, and nothing is shown on it. -/
theorem stops_nextLine {v : Operand K} {bytes : Bytes} (string : v.bytes? = some bytes) :
    stream.Stops [⟨.plain "T*", []⟩, ⟨.plain "Tj", [v]⟩] := by
  have standard : Operators.IsStandard stream.table := .inl graphics
  refine ⟨fun count s e failed => ?_, stops_last _⟩
  let start : RunState K σ := { s with index := count }
  cases opened : s.text with
  | some object =>
      have moves : (stream.table.dispatch ⟨.plain "T*", []⟩).run (stream.environment stream.scope)
          stream.nested { s with index := count } = ⟨.ok (), start.nextLine, []⟩ :=
        Operators.run_nextLine (s := start) standard opened 3
      obtain ⟨log, performed, _⟩ := perform_of_run moves
      rw [performed] at failed
      cases failed
  | none =>
      have stays : (stream.table.dispatch ⟨.plain "T*", []⟩).run (stream.environment stream.scope)
          stream.nested { s with index := count } = ⟨.error (.outsideTextObject "T*"), start, []⟩ :=
        Operators.run_nextLine_of_none (s := start) standard opened 3
      obtain ⟨_, performed, _⟩ := perform_of_run stays
      obtain ⟨log, shown, silent⟩ := exists_perform_showText graphics string (s := start) opened
        (count + 1)
      rw [performed]
      refine ⟨log, count + 1, silent, ?_⟩
      dsimp only
      rw [carryOut, shown,
        Outcome.inStream_of_none (o := ⟨.error (.outsideTextObject "Tj"), _, log⟩) rfl,
        Outcome.andThen_of_ok rfl]
      simp only [carryOut, Outcome.after, List.append_nil]

/-- The steps of an operator end with the first that fails. -/
theorem stops_of_abbreviates {call : Call K} {steps : List (Call K)}
    (abbreviates : call.Abbreviates steps) : stream.Stops steps := by
  cases abbreviates with
  | stroke operands | fillStroke operands | fillStrokeEvenOdd operands =>
      exact (stops_last _).cons (perform_closePath graphics operands)
  | showText string => exact stops_nextLine graphics string
  | showTextSpaced wordSpacing charSpacing =>
      exact ((stops_last _).cons
        (perform_textSetter graphics Operators.mem_setCharSpacing charSpacing)).cons
        (perform_textSetter graphics Operators.mem_setWordSpacing wordSpacing)
  | moveText horizontal vertical opposite =>
      exact (stops_last _).cons (perform_textSetter graphics Operators.mem_setLeading opposite)

end StreamSettings

end Abbreviations

end PdfContent
