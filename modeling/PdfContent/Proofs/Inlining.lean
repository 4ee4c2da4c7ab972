import Mathlib.Data.List.Infix
import PdfContent.Content.TokenStream
import PdfContent.Proofs.FramedOperators
import PdfContent.Proofs.Restoration
import PdfContent.Scalar.Whole

/-!
# A form is the same as its content written out

Running a form is the same as running `q`, the form's matrix, a clip to its box, the form's content
and `Q` in the stream that shows it. These are two independent ways to do the same: a nested stream
has a stack of its own and is left whatever its state is, and `q` and `Q` work on the stack of the
stream.

The content is run twice, once in a nested stream and once above the states that are saved in the
stream around it. Each operator does the same in both as long as it opens no stream, and `Q` does as
long as something of the content's own is saved.
-/

namespace PdfContent

variable {K σ : Type}

/-- How often an operator stands among tokens. -/
def Token.count (keyword : String) (tokens : List (Token K)) : Nat :=
  tokens.countP fun
    | .operator op => op.keyword == keyword
    | .operand _ => false

/-- With a number of saved states to begin with, tokens never restore more than is saved, and have
restored all in the end. -/
structure Balanced (saved : Nat) (tokens : List (Token K)) : Prop where
  enough : ∀ front, front <+: tokens → Token.count "Q" front ≤ saved + Token.count "q" front
  all : Token.count "Q" tokens = saved + Token.count "q" tokens

instance (saved : Nat) (tokens : List (Token K)) : Decidable (Balanced saved tokens) :=
  decidable_of_iff
    ((∀ front ∈ tokens.inits, Token.count "Q" front ≤ saved + Token.count "q" front) ∧
      Token.count "Q" tokens = saved + Token.count "q" tokens)
    ⟨fun ⟨enough, all⟩ => ⟨fun front within => enough front ((List.mem_inits _ _).mpr within), all⟩,
      fun ⟨enough, all⟩ => ⟨fun front among => enough front ((List.mem_inits _ _).mp among), all⟩⟩

namespace Balanced

variable {n m : Nat} {token : Token K} {tokens : List (Token K)} {op : Operator K}

theorem count_cons (keyword : String) (token : Token K) (tokens : List (Token K)) :
    Token.count keyword (token :: tokens) = Token.count keyword [token] +
      Token.count keyword tokens := by
  change Token.count keyword ([token] ++ tokens) = _
  exact List.countP_append

/-- What is left after a token is balanced for what is saved then. -/
theorem tail (balanced : Balanced n (token :: tokens))
    (change : m + Token.count "Q" [token] = n + Token.count "q" [token]) : Balanced m tokens where
  enough front within := by
    have := balanced.enough (token :: front) (List.cons_prefix_cons.mpr ⟨rfl, within⟩)
    rw [count_cons, count_cons "q"] at this
    omega
  all := by
    have := balanced.all
    rw [count_cons, count_cons "q"] at this
    omega

theorem operand {v : Operand K} (balanced : Balanced n (.operand v :: tokens)) :
    Balanced n tokens :=
  balanced.tail rfl

theorem save (balanced : Balanced n (.operator op :: tokens)) (keyword : op.keyword = "q") :
    Balanced (n + 1) tokens :=
  balanced.tail (by simp [Token.count, keyword])

theorem restore (balanced : Balanced n (.operator op :: tokens)) (keyword : op.keyword = "Q") :
    ∃ m, n = m + 1 ∧ Balanced m tokens := by
  have first := balanced.enough [.operator op] (List.cons_prefix_cons.mpr ⟨rfl, List.nil_prefix⟩)
  simp only [Token.count, keyword, List.countP_singleton] at first
  obtain ⟨m, rfl⟩ : ∃ m, n = m + 1 := ⟨n - 1, by simp at first; omega⟩
  exact ⟨m, rfl, balanced.tail (by simp [Token.count, keyword])⟩

theorem other (balanced : Balanced n (.operator op :: tokens))
    (keyword : op.keyword ∉ Operators.stackKeywords) : Balanced n tokens := by
  simp only [Operators.stackKeywords, List.mem_cons, List.not_mem_nil, or_false, not_or] at keyword
  exact balanced.tail (by simp [Token.count, keyword])

end Balanced

/-! ### Operators that open no stream -/

namespace StreamSettings

variable {stream : StreamSettings K σ} {index count : Nat} {call : Call K} {s : RunState K σ}

theorem environment_stable (t : RunState K σ)
    (same : t.place = ({ s with index } : RunState K σ).place) :
    stream.environment stream.scope t = stream.environment stream.scope { s with index } := by
  simp only [RunSettings.environment, same]

theorem callbacks_report (r : RunSettings K σ) (call : Call K) (s : RunState K σ)
    (result : Except OperatorError Unit) : Entry.callbacks (r.report call s result) = [] := by
  cases result with
  | ok _ => rfl
  | error e =>
      simp only [RunSettings.report]
      split <;> rfl

/-- The marks and the warning around an operator are no callbacks. -/
theorem perform_of_run {o : Outcome OperatorError K σ Unit}
    (run : (stream.table.dispatch call).run (stream.environment stream.scope) stream.nested
      { s with index } = o) :
    ∃ log, stream.perform index call s = ⟨o.result, o.state, log⟩ ∧
      Entry.callbacks log = Entry.callbacks o.log := by
  rw [perform, run]
  refine ⟨_, rfl, ?_⟩
  rw [List.cons_append, List.cons_append, Entry.callbacks_cons_of_mark rfl]
  simp only [Entry.callbacks_append, callbacks_report, List.append_nil]
  exact List.append_nil _

/-- An operator that asks for no nested stream tells the device what its action does. -/
theorem perform_of_alone {o : Alone K σ Unit}
    (alone : (stream.table.dispatch call).alone
      (stream.environment stream.scope { s with index }) s.toContext = some o) :
    ∃ log, stream.perform index call s = ⟨o.result, { s with index, toContext := o.context }, log⟩ ∧
      Entry.callbacks log = Event.callbacks o.told := by
  rw [← Entry.callbacks_map_event]
  exact perform_of_run (Action.run_of_alone (s := { s with index }) environment_stable alone)

/-- An operator during which no stream is opened asks for none, where streams are opened. -/
theorem exists_alone
    (opens : ∀ content scope setup t, t.depth = s.depth →
      ∃ mark ∈ (stream.nested content scope setup t).log, mark.isOpening)
    (quiet : ∀ mark ∈ (stream.perform index call s).log, mark.isOpening = false) :
    ∃ o, (stream.table.dispatch call).alone
      (stream.environment stream.scope { s with index }) s.toContext = some o := by
  let start : RunState K σ := { s with index }
  refine Option.ne_none_iff_exists'.mp fun asks => ?_
  obtain ⟨mark, mem, opening⟩ :=
    Action.opening_of_alone (s := start) environment_stable opens asks
  have silent := quiet mark (List.mem_append_left _ (List.mem_append_left _
    (List.mem_cons_of_mem _ mem)))
  exact absurd (opening.symm.trans silent) (by decide)

/-- After an operator that does not end the stream, the tokens after it are run. -/
theorem runTokens_of_goesOn {op : Operator K} {operands : List (Operand K)} {rest : List (Token K)}
    {fault : Option ContentError} {o : Outcome OperatorError K σ Unit}
    (performed : stream.perform count ⟨op, operands⟩ s = o)
    (goesOn : o.state.ending? o.result = none) :
    stream.runTokens fault operands count s (.operator op :: rest) =
      (stream.runTokens fault [] (count + 1) o.state rest).after o.log := by
  simp only [runTokens, performed, goesOn]

/-- After an operator that ends the stream, none of the tokens after it is run. -/
theorem runTokens_of_ends {op : Operator K} {operands : List (Operand K)} {rest : List (Token K)}
    {fault : Option ContentError} {o : Outcome OperatorError K σ Unit}
    {result : Except ContentError Unit} (performed : stream.perform count ⟨op, operands⟩ s = o)
    (ends : o.state.ending? o.result = some result) :
    stream.runTokens fault operands count s (.operator op :: rest) = ⟨result, o.state, o.log⟩ := by
  simp only [runTokens, performed, ends]

/-- What the first operator logs is logged. -/
theorem mem_log_runTokens {op : Operator K} {operands : List (Operand K)} {rest : List (Token K)}
    {fault : Option ContentError} {mark : Entry K σ}
    (mem : mark ∈ (stream.perform count ⟨op, operands⟩ s).log) :
    mark ∈ (stream.runTokens fault operands count s (.operator op :: rest)).log := by
  simp only [runTokens]
  split
  · exact mem
  · exact List.mem_append_left _ mem

/-- An operator that asks for no nested stream and succeeds does not end the stream. -/
theorem runTokens_of_alone {op : Operator K} {operands : List (Operand K)} {rest : List (Token K)}
    {fault : Option ContentError} {c : Context K σ} {told : List (Event K σ)}
    (alone : (stream.table.dispatch ⟨op, operands⟩).alone
      (stream.environment stream.scope { s with index := count }) s.toContext =
        some ⟨.ok (), c, told⟩) :
    ∃ log, Entry.callbacks log = Event.callbacks told ∧
      stream.runTokens fault operands count s (.operator op :: rest) =
        (stream.runTokens fault [] (count + 1) { s with index := count, toContext := c } rest).after
          log := by
  obtain ⟨log, performed, callbacks⟩ := perform_of_alone alone
  exact ⟨log, callbacks, runTokens_of_goesOn performed rfl⟩

end StreamSettings

namespace Operators

variable [Scalar K] {env : Environment K σ} {place : Place} {below : List (GraphicsState K σ)}

/-- An operator of balanced tokens does the same above more saved states, and leaves as many states
saved as the tokens after it are balanced for. -/
theorem exists_framed {op : Operator K} {operands : List (Operand K)} {rest : List (Token K)}
    {c : Context K σ} (balanced : Balanced c.states.saved.length (.operator op :: rest))
    (room : place.depth < env.options.maxDepth) {o' : Alone K σ Unit}
    (alone : (graphicsTable.dispatch ⟨op, operands⟩).alone { env with place } (c.above below) =
      some o') :
    ∃ o, (graphicsTable.dispatch ⟨op, operands⟩).alone env c = some o ∧ o.Framed below o' ∧
      Balanced o.context.states.saved.length rest := by
  by_cases saves : op.keyword = "q"
  · rw [dispatch_save saves] at alone ⊢
    cases alone
    exact ⟨_, rfl, ⟨rfl, .ok (), rfl, rfl⟩, balanced.save saves⟩
  by_cases restores : op.keyword = "Q"
  · rw [dispatch_restore restores] at alone ⊢
    obtain ⟨⟨current, saved⟩, text, compatibility, path, pendingClip⟩ := c
    obtain ⟨n, length, later⟩ := balanced.restore restores
    cases saved with
    | nil => cases length
    | cons latest earlier =>
        cases Nat.succ.inj length
        cases alone
        exact ⟨_, rfl, ⟨rfl, .ok (), rfl, rfl⟩, later⟩
  · have apart : op.keyword ∉ stackKeywords := by simp [stackKeywords, saves, restores]
    obtain ⟨o, alone, framed, saved⟩ :=
      portable_dispatch ⟨op, operands⟩ apart c place below room o' alone
    exact ⟨o, alone, framed, saved ▸ balanced.other apart⟩

end Operators

/-- Below the depth limit nested streams are opened. -/
theorem RunSettings.opening_nestedRun [Scalar K] (r : RunSettings K σ) (levels : Nat) {depth : Nat}
    (room : depth < r.options.maxDepth) (content : Bytes) (scope : σ)
    (setup : GraphicsState K σ → GraphicsState K σ) (s : RunState K σ)
    (level : s.depth = depth) :
    ∃ mark ∈ (r.nestedRun (levels + 1) content scope setup s).log, mark.isOpening := by
  rw [nestedRun_succ_of_lt _ _ _ _ _ (level ▸ room)]
  exact ⟨_, List.mem_cons_self .., rfl⟩

/-- A stream goes on after an operator whose error, if any, concerns the operator alone. -/
theorem RunState.ending?_of_localResult (s : RunState K σ) {result : Except OperatorError Unit}
    (isLocal : LocalResult result) : s.ending? result = none := by
  cases result with
  | ok _ => rfl
  | error e => exact s.ending?_of_isLocal (isLocal e rfl)

/-- What an operator comes to in a stream of its own and above more saved states: both streams go on
with the tokens that are left, still one above the other. -/
structure FramedStep (below : List (GraphicsState K σ)) (depth : Nat) (rest : List (Token K))
    (o o' : Outcome OperatorError K σ Unit) : Prop where
  goesOn : o.state.ending? o.result = none
  goesOn' : o'.state.ending? o'.result = none
  above : o'.state.toContext = o.state.toContext.above below
  level : o'.state.depth = depth
  balanced : Balanced o.state.states.saved.length rest
  told : Entry.callbacks o'.log = Entry.callbacks o.log

namespace StreamSettings

variable [Scalar K] {r : RunSettings K σ} {scope : σ} {nested' : NestedRun K σ} {depth : Nat}
  {below : List (GraphicsState K σ)}

/-- An operator of balanced tokens goes alike in a stream of its own and above more saved states, if
no stream is opened. -/
theorem framed_perform (nested : NestedRun K σ) (graphics : r.table = Operators.graphicsTable)
    (room : depth < r.options.maxDepth)
    (opens : ∀ content scope setup t, t.depth = depth →
      ∃ mark ∈ (nested' content scope setup t).log, mark.isOpening)
    {op : Operator K} (operands : List (Operand K)) {rest : List (Token K)} (count count' : Nat)
    {s t : RunState K σ} (above : t.toContext = s.toContext.above below) (level : t.depth = depth)
    (balanced : Balanced s.states.saved.length (.operator op :: rest)) :
    let inner : StreamSettings K σ := { r with scope, nested }
    let outer : StreamSettings K σ := { r with scope, nested := nested' }
    let o' := outer.perform count' ⟨op, operands⟩ t
    (∀ mark ∈ o'.log, mark.isOpening = false) →
      FramedStep below depth rest (inner.perform count ⟨op, operands⟩ s) o' := by
  intro inner outer o' quiet
  obtain ⟨flat, alone'⟩ := exists_alone
    (fun content scope setup u same => opens content scope setup u (same.trans level)) quiet
  have lifted : (Operators.graphicsTable.dispatch ⟨op, operands⟩).alone
      { r.environment scope { s with index := count } with place := ⟨t.depth, count'⟩ }
      (s.toContext.above below) = some flat := by
    rw [← graphics, ← above]
    exact alone'
  obtain ⟨deep, lowered, framed, later⟩ := Operators.exists_framed balanced (level ▸ room) lifted
  have alone : (inner.table.dispatch ⟨op, operands⟩).alone
      (inner.environment inner.scope { s with index := count }) s.toContext = some deep := by
    rw [show inner.table = _ from graphics]
    exact lowered
  obtain ⟨log, done, told⟩ := perform_of_alone alone
  obtain ⟨log', done', told'⟩ := perform_of_alone alone'
  have performed' : o' = _ := done'
  rw [done, performed']
  exact {
    goesOn := RunState.ending?_of_localResult _ framed.isLocal
    goesOn' := RunState.ending?_of_localResult _ (framed.result ▸ framed.isLocal)
    above := framed.context
    level := level
    balanced := later
    told := told'.trans (framed.told.trans told.symm) }

/-- The `Q` that is left when all that was saved above other states has been restored. -/
theorem runTokens_restore (stream : StreamSettings K σ)
    (graphics : stream.table = Operators.graphicsTable) {first : GraphicsState K σ}
    {earlier : List (GraphicsState K σ)} (operands : List (Operand K)) (count : Nat)
    {c : Context K σ} {t : RunState K σ} (above : t.toContext = c.above (first :: earlier))
    (nothing : c.states.saved = []) :
    let o := stream.runTokens none operands count t [.operator (.plain "Q")]
    o.result = .ok () ∧ o.state.states = ⟨first, earlier⟩ ∧ Entry.callbacks o.log = [] := by
  intro o
  have alone : (stream.table.dispatch ⟨.plain "Q", operands⟩).alone
      (stream.environment stream.scope { t with index := count }) t.toContext =
        some ⟨.ok (), { t.toContext with states := ⟨first, earlier⟩ }, []⟩ := by
    rw [graphics, Operators.dispatch_restore rfl, above]
    simp only [Operators.restore, Operators.restoreState, Context.above, nothing]
    rfl
  obtain ⟨log, told, run⟩ := runTokens_of_alone alone
  have ended : o = _ := run
  rw [ended]
  exact ⟨rfl, rfl, (Entry.callbacks_append _ _).trans (by rw [told]; rfl)⟩

/-- Content in a stream of its own, and the same content followed by `Q` above the states of the
stream around it. The induction is on the tokens. -/
theorem framed_runTokens (nested : NestedRun K σ) (graphics : r.table = Operators.graphicsTable)
    (room : depth < r.options.maxDepth)
    (opens : ∀ content scope setup t, t.depth = depth →
      ∃ mark ∈ (nested' content scope setup t).log, mark.isOpening)
    {first : GraphicsState K σ} {earlier : List (GraphicsState K σ)} (tokens : List (Token K))
    (operands : List (Operand K)) (count count' : Nat) (s t : RunState K σ)
    (above : t.toContext = s.toContext.above (first :: earlier)) (level : t.depth = depth)
    (balanced : Balanced s.states.saved.length tokens) :
    let inner : StreamSettings K σ := { r with scope, nested }
    let outer : StreamSettings K σ := { r with scope, nested := nested' }
    let o := inner.runTokens none operands count s tokens
    let o' := outer.runTokens none operands count' t (tokens ++ [.operator (.plain "Q")])
    (∀ mark ∈ o'.log, mark.isOpening = false) →
      o.result = .ok () ∧ o'.result = .ok () ∧ o'.state.states = ⟨first, earlier⟩ ∧
        Entry.callbacks o'.log = Entry.callbacks o.log := by
  intro inner outer
  induction tokens generalizing operands count count' s t with
  | nil =>
      intro o o' _
      have nothing : s.states.saved = [] := List.eq_nil_of_length_eq_zero balanced.all.symm
      exact ⟨rfl, outer.runTokens_restore graphics operands count' above nothing⟩
  | cons token rest ih =>
      cases token with
      | operand v => exact ih _ _ _ s t above level balanced.operand
      | operator op =>
          intro o o' quiet
          have framed := framed_perform nested graphics room opens operands count count' above level
            balanced fun mark mem => quiet mark (mem_log_runTokens mem)
          have step : o = _ := runTokens_of_goesOn rfl framed.goesOn
          have step' : o' = _ := runTokens_of_goesOn rfl framed.goesOn'
          obtain ⟨result, result', states, same⟩ := ih [] (count + 1) (count' + 1) _ _
            framed.above framed.level framed.balanced
            fun mark mem => quiet mark (step' ▸ List.mem_append_right _ mem)
          rw [step, step']
          refine ⟨result, result', states, ?_⟩
          rw [Outcome.log_after, Outcome.log_after, Entry.callbacks_append, Entry.callbacks_append,
            framed.told]
          exact congrArg (_ ++ ·) same

end StreamSettings

/-! ### The form written out -/

variable [Scalar K]

/-- What a form stands for: its content under its matrix, clipped to its box, on a state of its own.
-/
def Form.inlined (form : Form K σ) (write : K → Operand K) (tokens : List (Token K)) :
    List (Token K) :=
  let numbers (xs : List K) : List (Token K) := (xs.map write).map .operand
  let box := form.bbox
  .operator (.plain "q") :: numbers form.matrix.toList ++ .operator (.plain "cm") ::
    numbers [box.x0, box.y0, box.x1 - box.x0, box.y1 - box.y0] ++
    .operator (.plain "re") :: .operator (.plain "W") :: .operator (.plain "n") ::
    (tokens ++ [.operator (.plain "Q")])

/-- What clipping to a box tells the device where it is written out. -/
def BBox.clipCallbacks (b : BBox K) (ctm : Matrix K) : List (Event K σ) :=
  let corner (x y : K) := ctm.applyPoint ⟨x, y⟩
  [.rectangle (corner b.x0 b.y0) (corner b.x1 b.y0) (corner b.x1 b.y1) (corner b.x0 b.y1), .endPath,
    .clip (Path.ofBox b ctm) .nonZero]

namespace Operators

open OperatorTable (dispatch_of_action)

variable {write : K → Operand K} {env : Environment K σ} {c : Context K σ} {op : Operator K}

theorem number_write (reads : ∀ x, (write x).number? = some x) (op : Operator K) (xs : List K)
    (i : Nat) {x : K} (among : xs[i]? = some x) :
    (⟨op, xs.map write⟩ : Call K).number i = .ok x := by
  have given : (xs.map write)[i]? = some (write x) := by
    rw [List.getElem?_map, among, Option.map_some]
  simp only [Call.number, Call.read, Call.operand, given, bind, Except.bind, reads]

/-- `cm` with the numbers of a matrix. -/
theorem alone_concat (reads : ∀ x, (write x).number? = some x) (m : Matrix K) :
    ((graphicsTable (σ := σ)).dispatch ⟨.plain "cm", m.toList.map write⟩).alone env c =
      some ⟨.ok (), c.updateState fun s => s.concat m, []⟩ := by
  have found := find?_graphicsTable_of_mem (e := setter (K := K) (σ := σ) "cm" 6 concatMatrix)
    (by simp [sharedEntries, stateEntries])
  have number := number_write reads (.plain "cm") m.toList
  have matrix : (⟨.plain "cm", m.toList.map write⟩ : Call K).matrix = .ok m := by
    rw [Call.matrix, number 0 rfl, number 1 rfl, number 2 rfl, number 3 rfl, number 4 rfl,
      number 5 rfl]
    rfl
  rw [dispatch_of_action found (by simp [Matrix.toList])]
  simp only [concatMatrix, matrix]
  rfl

/-- `re` with the numbers of a box that has a size in exact arithmetic. -/
theorem alone_rectangle (reads : ∀ x, (write x).number? = some x)
    (exact : ∀ x y : K, x + (y - x) = y) (b : BBox K) (empty : c.path = .empty) :
    ((graphicsTable (σ := σ)).dispatch
        ⟨.plain "re", [b.x0, b.y0, b.x1 - b.x0, b.y1 - b.y0].map write⟩).alone env c =
      let corner (x y : K) := c.state.ctm.applyPoint ⟨x, y⟩
      let p := corner b.x0 b.y0
      let q := corner b.x1 b.y0
      let r := corner b.x1 b.y1
      let s := corner b.x0 b.y1
      some ⟨.ok (), { c with path := PathBuilder.empty.quad p q r s }, [.rectangle p q r s]⟩ := by
  have found := find?_graphicsTable_of_mem (e := entry (K := K) (σ := σ) "re" 4 appendRectangle)
    (by simp [paintingEntries, pathConstructionEntries])
  have number := number_write reads (.plain "re") [b.x0, b.y0, b.x1 - b.x0, b.y1 - b.y0]
  rw [dispatch_of_action found (by simp)]
  simp only [appendRectangle]
  rw [number 0 rfl, number 1 rfl, number 2 rfl, number 3 rfl]
  change some _ = some _
  simp only [exact, empty]
  rfl

theorem alone_setPendingClip (operands : List (Operand K)) :
    ((graphicsTable (σ := σ)).dispatch ⟨.plain "W", operands⟩).alone env c =
      some ⟨.ok (), { c with pendingClip := some .nonZero }, []⟩ := by
  have found := find?_graphicsTable_of_mem
    (e := entry (K := K) (σ := σ) "W" 0 (setPendingClip .nonZero))
    (by simp [paintingEntries, pathPaintingEntries])
  rw [dispatch_of_action found (by simp)]
  rfl

/-- `n` on the outline of a box that is to be a clip. -/
theorem alone_endPath (p q r s : Point K) (operands : List (Operand K)) :
    let outline := PathBuilder.empty.quad p q r s
    ((graphicsTable (σ := σ)).dispatch ⟨.plain "n", operands⟩).alone env
        { c with path := outline, pendingClip := some .nonZero } =
      some ⟨.ok (),
        ({ c with path := .empty, pendingClip := none } : Context K σ).updateState fun s =>
          s.intersectClip outline.path .nonZero,
        [.endPath, .clip outline.path .nonZero]⟩ := by
  have found := find?_graphicsTable_of_mem
    (e := entry (K := K) (σ := σ) "n" 0 (finishPath .nothing))
    (by simp [paintingEntries, pathPaintingEntries])
  rw [dispatch_of_action found (by simp)]
  rfl

end Operators

/-- No text object and no compatibility section is open, and no path is under construction. -/
structure Context.Idle (c : Context K σ) : Prop where
  text : c.text = none
  compatibility : c.compatibility = 0
  path : c.path = .empty
  pendingClip : c.pendingClip = none

namespace StreamSettings

variable {stream : StreamSettings K σ} {c c' c'' : Context K σ} {told later : List (Event K σ)}

omit [Scalar K] in
theorem runTokens_operands (fault : Option ContentError) (values operands : List (Operand K))
    (count : Nat) (s : RunState K σ) (rest : List (Token K)) :
    stream.runTokens fault operands count s (values.map .operand ++ rest) =
      stream.runTokens fault (operands ++ values) count s rest := by
  induction values generalizing operands with
  | nil => simp
  | cons v later ih => simpa [runTokens] using ih (operands ++ [v])

/-- In a context, running tokens comes to running other tokens in another context, once the device
has been told something. -/
def Leads (stream : StreamSettings K σ) (c : Context K σ) (tokens : List (Token K))
    (told : List (Event K σ)) (c' : Context K σ) (rest : List (Token K)) : Prop :=
  ∀ count s, s.toContext = c → ∃ log count' t, Entry.callbacks log = told ∧ t.toContext = c' ∧
    t.depth = s.depth ∧
    stream.runTokens none [] count s tokens = (stream.runTokens none [] count' t rest).after log

namespace Leads

omit [Scalar K] in
theorem trans {first second third : List (Token K)} (one : stream.Leads c first told c' second)
    (two : stream.Leads c' second later c'' third) :
    stream.Leads c first (told ++ later) c'' third := by
  intro count s here
  obtain ⟨log, count', t, told, there, depth, run⟩ := one count s here
  obtain ⟨log', count'', u, told', there', depth', run'⟩ := two count' t there
  refine ⟨log ++ log', count'', u, ?_, there', depth'.trans depth, ?_⟩
  · rw [Entry.callbacks_append, told, told']
  · rw [run, run', Outcome.after_after]

/-- An operator with its operands. -/
theorem operator (graphics : stream.table = Operators.graphicsTable) (values : List (Operand K))
    (keyword : String) (rest : List (Token K))
    (alone : ∀ env, (Operators.graphicsTable.dispatch ⟨.plain keyword, values⟩).alone env c =
      some ⟨.ok (), c', told⟩) :
    stream.Leads c (values.map .operand ++ .operator (.plain keyword) :: rest)
      (Event.callbacks told) c' rest := by
  rintro count s rfl
  rw [runTokens_operands]
  obtain ⟨log, callbacks, run⟩ := runTokens_of_alone (graphics ▸ alone _)
  exact ⟨log, count + 1, { s with index := count, toContext := c' }, callbacks, rfl, rfl, run⟩

theorem save (graphics : stream.table = Operators.graphicsTable) (rest : List (Token K)) :
    stream.Leads c (.operator (.plain "q") :: rest) [] { c with states := c.states.save } rest :=
  operator graphics [] "q" rest fun _ => by
    rw [Operators.dispatch_save rfl]
    rfl

section Numbers

variable {write : K → Operand K} (reads : ∀ x, (write x).number? = some x)

include reads

theorem concat (graphics : stream.table = Operators.graphicsTable) (m : Matrix K)
    (rest : List (Token K)) :
    stream.Leads c ((m.toList.map write).map .operand ++ .operator (.plain "cm") :: rest) []
      (c.updateState fun s => s.concat m) rest :=
  operator graphics _ "cm" rest fun _ => Operators.alone_concat reads m

/-- A clip to a box, written out where no path is under construction. -/
theorem clipToBox (graphics : stream.table = Operators.graphicsTable)
    (exact : ∀ x y : K, x + (y - x) = y) (b : BBox K) (empty : c.path = .empty)
    (rest : List (Token K)) :
    stream.Leads c
      (([b.x0, b.y0, b.x1 - b.x0, b.y1 - b.y0].map write).map .operand ++
        .operator (.plain "re") :: .operator (.plain "W") :: .operator (.plain "n") :: rest)
      (b.clipCallbacks c.state.ctm)
      (({ c with path := .empty, pendingClip := none } : Context K σ).updateState fun s =>
        s.clipToBox b) rest := by
  have outline := operator graphics _ "re"
    (.operator (.plain "W") :: .operator (.plain "n") :: rest)
    fun _ => Operators.alone_rectangle reads exact b empty
  have pending (c : Context K σ) := operator graphics [] "W" (.operator (.plain "n") :: rest)
    fun _ => Operators.alone_setPendingClip (c := c) []
  have painted (p q r s : Point K) := operator graphics [] "n" rest
    fun _ => Operators.alone_endPath (c := c) p q r s []
  exact outline.trans ((pending _).trans (painted _ _ _ _))

end Numbers

end Leads

/-- The form written out, up to its content: the state is the one that the form starts with, above
the states that are saved by then. -/
theorem leads_inlined (stream : StreamSettings K σ)
    (graphics : stream.table = Operators.graphicsTable)
    {write : K → Operand K} (reads : ∀ x, (write x).number? = some x)
    (exact : ∀ x y : K, x + (y - x) = y) (form : Form K σ) (tokens : List (Token K))
    {s : RunState K σ} (idle : s.toContext.Idle) :
    stream.Leads s.toContext (form.inlined write tokens)
      (form.bbox.clipCallbacks (form.matrix.concat s.state.ctm))
      ((s.enter (Operators.enterForm form)).toContext.above (s.states.current :: s.states.saved))
      (tokens ++ [.operator (.plain "Q")]) := by
  obtain ⟨⟨⟨current, saved⟩, text, compatibility, path, pendingClip⟩, depth, index, stash⟩ := s
  obtain ⟨rfl, rfl, rfl, rfl⟩ := idle
  exact (Leads.save graphics _).trans ((Leads.concat reads graphics form.matrix _).trans
    (Leads.clipToBox reads graphics exact form.bbox rfl _))

end StreamSettings

/-! ### The form shown by its name -/

/-- Below the limit a form is run as a nested stream between its two events. -/
theorem Operators.run_showForm {environment : RunState K σ → Environment K σ}
    {nested : NestedRun K σ} {s : RunState K σ}
    (room : (environment s).place.depth < (environment s).options.maxDepth) (name : String)
    (form : Form K σ) :
    (showForm name form).run environment nested s =
      let o := nested form.content (form.scope.getD (environment s).scope) (enterForm form) s
      ⟨o.result, o.state,
        .event (.beginForm (formEvent name form (form.matrix.concat s.state.ctm))) :: o.log ++
          [.event .endForm]⟩ := by
  have below : ¬(environment s).options.maxDepth ≤ (environment s).place.depth :=
    Nat.not_le.mpr room
  have check :
      (Action.checkDepth : Action K σ Unit).run environment nested s = ⟨.ok (), s, []⟩ := by
    change Action.run environment nested (if _ then _ else _) s = _
    rw [if_neg below]
    rfl
  rw [showForm, Action.run_bind, check, Outcome.andThen_of_ok rfl]
  rfl

theorem Operators.run_invoke {environment : RunState K σ → Environment K σ} {nested : NestedRun K σ}
    {s : RunState K σ} {name : String} {form : Form K σ} (op : Operator K)
    (found : (environment s).resolver.xobject (environment s).scope name = some (.form form)) :
    (invoke ⟨op, [.name name]⟩).run environment nested s =
      (showForm name form).run environment nested s := by
  change ((Action.ofExcept (require .xobject name
    ((environment s).resolver.xobject (environment s).scope name)) >>= fun _ => _).run _ _ _ :
      Outcome OperatorError K σ Unit) = _
  rw [found]
  rfl

/-- A form that content can be written out for: it has no resources of its own, its content can be
read to the end, and restores just what it saves. -/
structure Form.Plain (form : Form K σ) : Prop where
  scope : form.scope = none
  whole : (Content.TokenStream.ofBytes (K := K) form.content).fault = none
  balanced : Balanced 0 (Content.TokenStream.ofBytes (K := K) form.content).values

/-- Both runs succeed and leave the graphics states as they were, and they tell the device the same,
but for the events of the form in one and those of its clip in the other. -/
structure Form.SameInlined (form : Form K σ) (name : String) (s : RunState K σ)
    (shown inlined : Outcome ContentError K σ Unit) : Prop where
  results : shown.result = .ok () ∧ inlined.result = .ok ()
  states : shown.state.states = s.states ∧ inlined.state.states = s.states
  callbacks : ∃ content,
    let ctm := form.matrix.concat s.state.ctm
    Entry.callbacks shown.log =
        .beginForm (Operators.formEvent name form ctm) :: content ++ [.endForm] ∧
      Entry.callbacks inlined.log = form.bbox.clipCallbacks ctm ++ content

omit [Scalar K] in
/-- What is told of a form that is run as a nested stream between its two events. -/
theorem Entry.callbacks_form (form : FormEvent K) (content : Bytes) (s t : RunState K σ)
    (result : Except ContentError Unit) (log : List (Entry K σ)) :
    callbacks (.event (.beginForm form) :: (.opened content s :: log ++ [.closed result t]) ++
        [.event .endForm]) =
      .beginForm form :: callbacks log ++ [.endForm] := by
  have opens (rest : List (Entry K σ)) :
      callbacks (.event (.beginForm form) :: .opened content s :: rest) =
        .beginForm form :: callbacks rest := rfl
  have closes : callbacks [(.closed result t : Entry K σ), .event .endForm] = [.endForm] := rfl
  simp only [List.cons_append, List.append_assoc, List.nil_append, opens, callbacks_append, closes]

namespace RunSettings

variable {r : RunSettings K σ} {scope : σ} {levels : Nat} {s : RunState K σ} {name : String}
  {form : Form K σ}

/-- Showing a form by its name tells what its content tells in a nested stream, between two events.
-/
theorem shown_form (graphics : r.table = Operators.graphicsTable)
    (room : s.depth < r.options.maxDepth)
    (found : r.resolver.xobject scope name = some (.form form)) (plain : form.Plain) (count : Nat) :
    let stream : StreamSettings K σ := { r with scope, nested := r.nestedRun (levels + 1) }
    let inner : StreamSettings K σ := { r with scope, nested := r.nestedRun levels }
    let start : RunState K σ := { s with index := count }
    let shown := stream.runTokens none [] count s
      [.operand (.name name), .operator (.plain "Do")]
    let o := inner.runTokens none [] 0 (start.enter (Operators.enterForm form))
      (Content.TokenStream.ofBytes form.content).values
    o.result = .ok () → shown.result = .ok () ∧ shown.state.states = s.states ∧
      Entry.callbacks shown.log =
        .beginForm (Operators.formEvent name form (form.matrix.concat s.state.ctm)) ::
          Entry.callbacks o.log ++ [.endForm] := by
  intro stream inner start shown o ok
  have nested : stream.nested form.content scope (Operators.enterForm form) start =
      ⟨.ok (), start, .opened form.content (start.enter (Operators.enterForm form)) :: o.log ++
        [.closed o.result o.state]⟩ := by
    have run := r.nestedRun_succ_of_lt levels form.content scope (Operators.enterForm form)
      (s := start) room
    simp only [StreamSettings.run, Content.TokenStream.error?, plain.whole, Option.map_none] at run
    exact run.trans (by simp only [o, inner, ok]; rfl)
  have entry := Operators.find?_graphicsTable_of_mem
    (e := Operators.entry (K := K) (σ := σ) "Do" 1 Operators.invoke)
    (by simp [Operators.sharedEntries, Operators.formEntries])
  have shows : (stream.table.dispatch ⟨.plain "Do", [.name name]⟩).run
      (stream.environment stream.scope) stream.nested start =
        ⟨.ok (), start,
          .event (.beginForm (Operators.formEvent name form (form.matrix.concat s.state.ctm))) ::
            (.opened form.content (start.enter (Operators.enterForm form)) :: o.log ++
              [.closed o.result o.state]) ++ [.event .endForm]⟩ := by
    rw [show stream.table = _ from graphics, OperatorTable.dispatch_of_action entry (Nat.le_refl 1),
      Operators.run_invoke _ found, Operators.run_showForm room, plain.scope]
    simp only [Option.getD_none]
    rw [show (stream.environment stream.scope start).scope = scope from rfl, nested]
  obtain ⟨log, performed, callbacks⟩ := StreamSettings.perform_of_run shows
  have run : shown = _ := StreamSettings.runTokens_of_goesOn performed rfl
  rw [run]
  refine ⟨rfl, rfl, ?_⟩
  rw [Outcome.log_after, Entry.callbacks_append, callbacks]
  have silent : Entry.callbacks (stream.runTokens none [] (count + 1) start []).log = [] := rfl
  simp only [silent, List.append_nil]
  exact Entry.callbacks_form _ _ _ _ _ _

/-- Where streams are bounded by the depth limit, showing a plain form by its name is the same as
its content written out under its matrix and clipped to its box, unless the content opens a stream.
-/
theorem graphics_form_sameInlined (options : Options) (baseMatrix : Matrix K)
    (resolver : Resolver K σ) (scope : σ) (levels : Nat) (exact : ∀ x y : K, x + (y - x) = y)
    (write : K → Operand K) (reads : ∀ x, (write x).number? = some x) {s : RunState K σ}
    (idle : s.toContext.Idle) (room : s.depth < options.maxDepth)
    (enough : options.maxDepth ≤ levels + s.depth) {name : String} {form : Form K σ}
    (found : resolver.xobject scope name = some (.form form)) (plain : form.Plain)
    (count count' : Nat) :
    let r : RunSettings K σ := graphics options baseMatrix resolver
    let stream : StreamSettings K σ := { r with scope, nested := r.nestedRun levels }
    let tokens := (Content.TokenStream.ofBytes form.content).values
    let shown := stream.runTokens none [] count s [.operand (.name name), .operator (.plain "Do")]
    let inlined := stream.runTokens none [] count' s (form.inlined write tokens)
    (∀ mark ∈ inlined.log, mark.isOpening = false) → form.SameInlined name s shown inlined := by
  obtain ⟨n, rfl⟩ : ∃ n, levels = n + 1 := ⟨levels - 1, by omega⟩
  intro r stream tokens shown inlined quiet
  let start : RunState K σ := { s with index := count }
  obtain ⟨log, k, t, clipped, above, depth, run⟩ :=
    StreamSettings.leads_inlined stream rfl reads exact form tokens idle count' s rfl
  have inlined_eq : inlined = _ := run
  obtain ⟨ok, ok', states, same⟩ :=
    StreamSettings.framed_runTokens (r.nestedRun n) rfl room
      (r.opening_nestedRun n room) tokens [] 0 k (start.enter (Operators.enterForm form)) t
      above depth plain.balanced (by
        intro mark mem
        exact quiet mark (inlined_eq ▸ List.mem_append_right _ mem))
  obtain ⟨result, back, callbacks⟩ := shown_form rfl room found plain count ok
  rw [inlined_eq] at *
  refine ⟨⟨result, ok'⟩, ⟨back, states⟩, _, callbacks, ?_⟩
  rw [Outcome.log_after, Entry.callbacks_append, clipped, same]

/-- A form that fills under a saved state and strokes in a colour and a width of its own, shown under a
state that is scaled and has another state saved. -/
theorem graphics_form_sameInlined_painted :
    let form : Form Int Unit :=
      { content := Text.encodeUtf8 "q 2 0 0 3 1 1 cm 0 0 2 3 re f Q 4 w 0 1 0 RG 1 2 m 5 6 l S",
        matrix := ⟨2, 0, 0, 2, 5, 7⟩, bbox := ⟨1, 2, 10, 20⟩, scope := none, group := none }
    let r : RunSettings Int Unit :=
      graphics ⟨2, true, true, true⟩ .identity
        (.ofCatalogs fun _ => { xobjects := [("Fm", .form form)] })
    let stream : StreamSettings Int Unit := { r with scope := (), nested := r.nestedRun 2 }
    let s : RunState Int Unit := (RunState.initial .identity).updateContext fun c =>
      { c with states := c.states.save }.updateState fun t => t.concat ⟨3, 0, 0, 3, 0, 0⟩
    let shown := stream.runTokens none [] 0 s [.operand (.name "Fm"), .operator (.plain "Do")]
    let inlined := stream.runTokens none [] 0 s
      (form.inlined .real (Content.TokenStream.ofBytes form.content).values)
    form.SameInlined "Fm" s shown inlined ∧ (Entry.callbacks shown.log).length = 7 ∧
      (Entry.callbacks inlined.log).length = 8 := by
  intro form r stream s shown inlined
  have plain : form.Plain := ⟨rfl, by decide +kernel, by decide +kernel⟩
  have same : form.SameInlined "Fm" s shown inlined := by
    refine graphics_form_sameInlined ⟨2, true, true, true⟩ .identity _ () 2 (fun x y => by omega)
      .real (fun _ => rfl) ⟨rfl, rfl, rfl, rfl⟩ (by decide) (by decide) rfl plain 0 0 ?_
    decide +kernel
  exact ⟨same, by decide +kernel, by decide +kernel⟩

end RunSettings

end PdfContent
