import PdfContent.Proofs.PathPainting
import PdfContent.Proofs.TextPlacement

/-!
# Running an action from step to step

The equations say what the first step of an action does and from where the rest of it is run. With
them an operator's run on given operands is computed along its definition.
-/

namespace PdfContent

variable {K σ α β : Type}

namespace Action

variable {environment : RunState K σ → Environment K σ} {nested : NestedRun K σ} {s : RunState K σ}

theorem run_ok_bind (b : β) (f : β → Action K σ α) :
    (ofExcept (.ok b) >>= f).run environment nested s = (f b).run environment nested s := rfl

theorem run_error_bind (e : OperatorError) (f : β → Action K σ α) :
    (ofExcept (.error e) >>= f).run environment nested s = ⟨.error e, s, []⟩ := rfl

theorem run_throw (e : OperatorError) :
    (MonadExcept.throw e : Action K σ α).run environment nested s = ⟨.error e, s, []⟩ := rfl

theorem run_environment_bind (f : Environment K σ → Action K σ α) :
    (Action.environment >>= f).run environment nested s =
      (f (environment s)).run environment nested s := rfl

theorem run_context_bind (f : Context K σ → Action K σ α) :
    (Action.context >>= f).run environment nested s =
      (f s.toContext).run environment nested s := rfl

theorem run_state_bind (f : GraphicsState K σ → Action K σ α) :
    (Action.state >>= f).run environment nested s = (f s.state).run environment nested s := rfl

theorem run_modify (f : Context K σ → Context K σ) :
    (Action.modify f).run environment nested s = ⟨.ok (), s.updateContext f, []⟩ := rfl

theorem run_emit_bind (e : Event K σ) (f : Unit → Action K σ α) :
    (Action.emit e >>= f).run environment nested s =
      ((f ()).run environment nested s).after [.event e] := rfl

/-- What the log gets of a warning: nothing, if warnings are not wanted. -/
def warned (env : Environment K σ) (keyword : String) (code : WarningCode) (description : String) :
    List (Entry K σ) :=
  if env.options.collectWarnings then
    [.event (.warning ((Warning.withCode code description).atOperator keyword env.place.index
      env.place.depth))]
  else []

theorem run_warnAt_bind (keyword : String) (code : WarningCode) (description : String)
    (f : Unit → Action K σ α) :
    (Action.warnAt keyword code description >>= f).run environment nested s =
      ((f ()).run environment nested s).after
        (warned (environment s) keyword code description) := by
  have first : (Action.warnAt keyword code description).run environment nested s =
      ⟨.ok (), s, warned (environment s) keyword code description⟩ := by
    rw [warned, Action.warnAt, run_environment_bind, Action.warn, run_environment_bind]
    split <;> rfl
  rw [run_bind, first, Outcome.andThen_of_ok rfl]

/-- A report of an error adds at most a warning to the log. -/
theorem exists_run_warnError (environment : RunState K σ → Environment K σ) (nested : NestedRun K σ)
    (s : RunState K σ) (keyword : String) (e : OperatorError) :
    ∃ warnings : List Warning, (Action.warnError keyword e).run environment nested s =
      ⟨.ok (), s, warnings.map fun w => .event (.warning w)⟩ := by
  rw [Action.warnError, run_environment_bind, Action.warn, run_environment_bind]
  split
  · exact ⟨[_], rfl⟩
  · exact ⟨[], rfl⟩

theorem run_nested (content : Bytes) (scope : σ) (setup : GraphicsState K σ → GraphicsState K σ) :
    (Action.nested content scope setup).run environment nested s =
      nested content scope setup s := by
  simp only [Action.nested, Action.run, Outcome.after, List.append_nil]

end Action

/-- An operand that has been read is there. -/
theorem Call.lt_length_of_read {call : Call K} {index : Nat} {expected : String}
    {view : Operand K → Option α} {a : α} (given : call.read index expected view = .ok a) :
    index < call.operands.length := by
  obtain ⟨v, there, -⟩ := exists_of_bind_ok given
  rw [operand] at there
  split at there
  next found => exact (List.getElem?_eq_some_iff.mp found).1
  next => cases there

namespace Operators

section TextObjects

variable {environment : RunState K σ → Environment K σ} {nested : NestedRun K σ} {s : RunState K σ}
  {object : TextObject K}

theorem run_textObject_bind (opened : s.text = some object) (keyword : String)
    (f : TextObject K → Action K σ α) :
    (textObject keyword >>= f).run environment nested s =
      (f object).run environment nested s := by
  rw [textObject, bind_assoc, Action.run_context_bind, opened]
  rfl

theorem run_textObject_bind_of_none (closed : s.text = none) (keyword : String)
    (f : TextObject K → Action K σ α) :
    (textObject keyword >>= f).run environment nested s =
      ⟨.error (.outsideTextObject keyword), s, []⟩ := by
  rw [textObject, bind_assoc, Action.run_context_bind, closed]
  rfl

theorem run_updateTextObject (opened : s.text = some object) (keyword : String)
    (f : TextObject K → TextObject K) :
    (updateTextObject keyword f).run environment nested s =
      ⟨.ok (), s.updateContext fun c => { c with text := some (f object) }, []⟩ := by
  rw [updateTextObject, run_textObject_bind opened, Action.run_modify]

theorem run_updateTextObject_of_none (closed : s.text = none) (keyword : String)
    (f : TextObject K → TextObject K) :
    (updateTextObject keyword f).run environment nested s =
      ⟨.error (.outsideTextObject keyword), s, []⟩ :=
  run_textObject_bind_of_none closed keyword _

end TextObjects

variable [Scalar K]

/-- One of the built-in tables. -/
def IsStandard (t : ContentTable K σ) : Prop := t = graphicsTable ∨ t = textTable

section Shared

variable {t : ContentTable K σ} (standard : IsStandard t)

include standard

/-- An operator that both tables carry out is found in either. -/
theorem find?_of_mem_sharedEntries {e : TableEntry K (Action K σ)} (mem : e ∈ sharedEntries) :
    t.find? e.keyword = some e := by
  have nodup : ((sharedEntries (K := K) (σ := σ)).map TableEntry.keyword).Nodup := by
    rw [keywords_sharedEntries]
    decide
  have apart : e.keyword ∉ paintingKeywords := by
    have disjoint : ∀ keyword ∈ sharedKeywords, keyword ∉ paintingKeywords := by decide
    apply disjoint
    rw [← keywords_sharedEntries (K := K) (σ := σ)]
    exact List.mem_map_of_mem mem
  have ⟨inGraphics, inText⟩ := find?_of_not_painting (K := K) (σ := σ) apart
  rcases standard with rfl | rfl
  · exact inGraphics.trans (OperatorTable.find?_ofList_of_mem nodup mem)
  · exact inText.trans (OperatorTable.find?_ofList_of_mem nodup mem)

/-- An operator with an action of its own is carried out by the action, by either table. -/
theorem dispatchWithin_shared {keyword : String} {minOperands : Nat}
    {run : Call K → Action K σ Unit} (mem : entry keyword minOperands run ∈ sharedEntries)
    {call : Call K} (same : call.operator.keyword = keyword)
    (enough : minOperands ≤ call.operands.length) (links : Nat) :
    t.dispatchWithin links call = run call :=
  OperatorTable.dispatchWithin_of_action
    (same ▸ find?_of_mem_sharedEntries standard mem) enough links

/-- An operator that stands for others is carried out by carrying out those, one after another. -/
theorem dispatchWithin_shared_of_sequence {keyword : String} {minOperands : Nat}
    {steps : Call K → Except OperatorError (List (String × List (Operand K)))}
    (mem : compound (σ := σ) keyword minOperands steps ∈ sharedEntries)
    {call : Call K} (same : call.operator.keyword = keyword)
    (enough : minOperands ≤ call.operands.length) (links : Nat) :
    t.dispatchWithin (links + 1) call =
      match steps call with
      | .ok calls => calls.forM fun step => t.dispatchWithin links ⟨.plain step.1, step.2⟩
      | .error e => throw e := by
  have found : t.find? call.operator.keyword = some (compound keyword minOperands steps) :=
    same ▸ find?_of_mem_sharedEntries standard mem
  rw [OperatorTable.dispatchWithin, found]
  simp only [compound, Nat.not_lt.mpr enough, if_false]
  cases steps call <;> rfl

/-- An operator with too few operands is not carried out. -/
theorem dispatchWithin_shared_of_few {e : TableEntry K (Action K σ)} (mem : e ∈ sharedEntries)
    {call : Call K} (same : call.operator.keyword = e.keyword)
    (few : call.operands.length < e.minOperands) (links : Nat) :
    t.dispatchWithin links call =
      throw (.missingOperand call.operator.keyword e.minOperands call.operands.length) := by
  have found : t.find? call.operator.keyword = some e :=
    same ▸ find?_of_mem_sharedEntries standard mem
  rw [OperatorTable.dispatchWithin, found]
  simp only [few, if_true]

end Shared

end Operators

end PdfContent
