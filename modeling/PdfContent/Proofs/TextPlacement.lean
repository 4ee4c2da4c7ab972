import PdfContent.Proofs.Lookup
import PdfContent.Proofs.Painting
import PdfContent.Proofs.SharedOperators

/-!
# Finding text without painting

Finding text shows the same glyphs as painting the page, in the same order and places, if glyph
procedures and pattern cells are left out of the painting. The two runs use different tables: what
only paints has handlers of its own in one and does nothing in the other.

The two runs stay in states that are alike. An operator of both tables goes alike in both. A
painting operator does nothing in one run; in the other it keeps the state alike, shows no glyph,
and at worst fails in a way after which the stream goes on, so that both streams go on together.
From operators this carries over to the tokens of a stream and, by induction on the levels, to
nested streams.
-/

namespace PdfContent

variable {K σ : Type} [Scalar K]

namespace Operators

/-- What both tables find under a keyword that is none of painting. -/
theorem find?_of_not_painting {keyword : String} (other : keyword ∉ paintingKeywords) :
    (graphicsTable (K := K) (σ := σ)).find? keyword =
        (OperatorTable.ofList sharedEntries).find? keyword ∧
      (textTable (K := K) (σ := σ)).find? keyword =
        (OperatorTable.ofList sharedEntries).find? keyword := by
  have absent :
      (OperatorTable.ofList (paintingEntries (K := K) (σ := σ))).find? keyword = none := by
    cases found : (OperatorTable.ofList (paintingEntries (K := K) (σ := σ))).find? keyword with
    | none => rfl
    | some e =>
        obtain ⟨mem, key⟩ := OperatorTable.mem_of_find?_ofList found
        have listed := List.mem_map_of_mem (f := TableEntry.keyword) mem
        rw [keywords_paintingEntries, key] at listed
        exact absurd listed other
  constructor
  · rw [find?_graphicsTable, absent, Option.none_or]
  · rw [find?_textTable, absent, Option.map_none, Option.none_or]

/-- Under the keyword of a painting operator there is an entry for painting. -/
theorem exists_of_painting {keyword : String} (painting : keyword ∈ paintingKeywords) :
    ∃ e ∈ paintingEntries,
      (OperatorTable.ofList (paintingEntries (K := K) (σ := σ))).find? keyword = some e ∧
        e.keyword = keyword := by
  rw [← keywords_paintingEntries (K := K) (σ := σ)] at painting
  obtain ⟨listed, mem, key⟩ := List.mem_map.mp painting
  obtain ⟨e, found⟩ := OperatorTable.exists_of_mem mem
  rw [key] at found
  have ⟨mem, key⟩ := OperatorTable.mem_of_find?_ofList found
  exact ⟨e, mem, found, key⟩

/-- One table paints with it. -/
theorem find?_graphicsTable_of_painting {keyword : String} (painting : keyword ∈ paintingKeywords) :
    ∃ e ∈ paintingEntries, (graphicsTable (K := K) (σ := σ)).find? keyword = some e ∧
      e.keyword = keyword := by
  have ⟨e, mem, found, key⟩ := exists_of_painting (K := K) (σ := σ) painting
  refine ⟨e, mem, ?_, key⟩
  rw [find?_graphicsTable, found, Option.some_or]

/-- The other one does nothing. -/
theorem find?_textTable_of_painting {keyword : String} (painting : keyword ∈ paintingKeywords) :
    (textTable (K := K) (σ := σ)).find? keyword = some (ignored keyword 0) := by
  have ⟨e, _, found, key⟩ := exists_of_painting (K := K) (σ := σ) painting
  rw [find?_textTable, found, Option.map_some, Option.some_or, key]

/-- Operators that both tables carry out stand for none that only paint. -/
theorem not_painting_of_mem_textLinks {keyword next : String} (link : (keyword, next) ∈ textLinks) :
    next ∉ paintingKeywords := by
  have all : ∀ link ∈ textLinks, link.2 ∉ paintingKeywords := by decide
  exact all _ link

/-- Painting operators stand for painting operators. -/
theorem painting_of_mem_paintLinks {keyword next : String} (link : (keyword, next) ∈ paintLinks) :
    next ∈ paintingKeywords := by
  have all : ∀ link ∈ paintLinks, link.2 ∈ paintingKeywords := by decide
  exact all _ link

theorem placesAlike_forM {α : Type} {f g : α → Action K σ Unit} (items : List α)
    (each : ∀ a ∈ items, Action.Agrees (fun _ _ => True) (f a) (g a)) :
    Action.Agrees (fun _ _ => True) (forM items f) (forM items g) := by
  induction items with
  | nil => exact .pure trivial
  | cons a rest ih =>
      rw [List.forM_cons, List.forM_cons]
      exact .next (each a (by simp)) (ih fun b mem => each b (List.mem_cons_of_mem _ mem))

/-- What carrying out an operator begins with that is none of painting: the same on both tables,
going alike, and then other such operators. -/
theorem expand_of_not_painting (call : Call K) (other : call.operator.keyword ∉ paintingKeywords) :
    (graphicsTable (σ := σ)).expand call = textTable.expand call ∧
      PlacesAlike ((graphicsTable (σ := σ)).expand call).1 ∧
      ∀ step ∈ ((graphicsTable (σ := σ)).expand call).2,
        step.operator.keyword ∉ paintingKeywords := by
  obtain ⟨inGraphics, inText⟩ := find?_of_not_painting (K := K) (σ := σ) other
  refine ⟨by simp only [OperatorTable.expand, inGraphics, inText], ?_⟩
  rcases OperatorTable.expand_cases (graphicsTable (σ := σ)) call with ⟨e, _, same⟩ |
    ⟨entry, found, ⟨run, kind, same⟩ | ⟨steps, kind, ⟨e, _, same⟩ | ⟨calls, given, same⟩⟩⟩ <;>
    rw [same]
  · exact ⟨.error e, by simp⟩
  · obtain ⟨mem, _⟩ := OperatorTable.mem_of_find?_ofList (inGraphics ▸ found)
    have alike := alikeEntry_sharedEntries entry mem
    simp only [AlikeEntry, kind] at alike
    exact ⟨alike call, by simp⟩
  · exact ⟨.error e, by simp⟩
  · obtain ⟨mem, _⟩ := OperatorTable.mem_of_find?_ofList (inGraphics ▸ found)
    have standsFor := standsFor_sharedEntries entry mem
    simp only [TableEntry.StandsFor, kind] at standsFor
    refine ⟨.pure trivial, ?_⟩
    intro step hstep
    obtain ⟨s, hs, rfl⟩ := List.mem_map.mp hstep
    exact not_painting_of_mem_textLinks (standsFor call calls given s hs)

/-- An operator that is none of painting goes alike on both tables, with the operators that it
stands for. -/
theorem agrees_dispatchWithin (links : Nat) (call : Call K)
    (enough : rank call.operator.keyword < links)
    (other : call.operator.keyword ∉ paintingKeywords) :
    Action.Agrees (fun _ _ => True) (graphicsTable.dispatchWithin (m := Action K σ) links call)
      (textTable.dispatchWithin links call) := by
  induction links generalizing call with
  | zero => exact absurd enough (Nat.not_lt_zero _)
  | succ links ih =>
      obtain ⟨same, alike, others⟩ := expand_of_not_painting (σ := σ) call other
      rw [OperatorTable.dispatchWithin_succ, OperatorTable.dispatchWithin_succ, ← same]
      refine .next alike (placesAlike_forM _ fun step hstep => ih step ?_ (others step hstep))
      exact Nat.lt_of_lt_of_le (ranked_graphicsTable call step hstep) (Nat.le_of_lt_succ enough)

/-- What carrying out a painting operator begins with: something that only paints, and then other
painting operators. -/
theorem expand_of_painting {env : Environment K σ} (off : env.options.expandPatterns = false)
    (call : Call K) (painting : call.operator.keyword ∈ paintingKeywords) :
    (∀ c, Paints env c (graphicsTable.expand call).1) ∧
      ∀ step ∈ ((graphicsTable (σ := σ)).expand call).2,
        step.operator.keyword ∈ paintingKeywords := by
  have ⟨listed, mem, inGraphics, key⟩ := find?_graphicsTable_of_painting (K := K) (σ := σ) painting
  have follows := paints_paintingEntries listed mem
  have standsFor := standsFor_paintingEntries listed mem
  rcases OperatorTable.expand_cases (graphicsTable (σ := σ)) call with ⟨e, isLocal, same⟩ |
    ⟨entry, found, cases⟩
  · rw [same]
    exact ⟨fun c => .throw isLocal, by simp⟩
  · obtain rfl : listed = entry := Option.some.inj (inGraphics.symm.trans found)
    rcases cases with ⟨run, kind, same⟩ | ⟨steps, kind, ⟨e, given, same⟩ | ⟨calls, given, same⟩⟩ <;>
      rw [same]
    · simp only [TableEntry.Follows, kind] at follows
      exact ⟨fun c => follows env c call off, by simp⟩
    · simp only [TableEntry.Follows, kind] at follows
      exact ⟨fun c => .throw (follows call e given), by simp⟩
    · simp only [TableEntry.StandsFor, kind] at standsFor
      refine ⟨fun c => .pure trivial, ?_⟩
      intro step hstep
      obtain ⟨s, hs, rfl⟩ := List.mem_map.mp hstep
      exact painting_of_mem_paintLinks (standsFor call calls given s hs)

/-- A painting operator only paints, with the operators that it stands for, if no pattern is
expanded. -/
theorem paints_dispatchWithin {env : Environment K σ} (off : env.options.expandPatterns = false)
    (links : Nat) (call : Call K) (enough : rank call.operator.keyword < links)
    (painting : call.operator.keyword ∈ paintingKeywords) (c : Context K σ) :
    Paints env c (graphicsTable.dispatchWithin links call) :=
  OperatorTable.behaves_dispatchWithin ranked_graphicsTable
    (fun call => expand_of_painting off call) links call enough painting c

theorem dispatch_textTable_of_painting (call : Call K)
    (painting : call.operator.keyword ∈ paintingKeywords) :
    (textTable (σ := σ)).dispatch call = (pure () : Action K σ Unit) := by
  rw [OperatorTable.dispatch, OperatorTable.dispatchWithin, find?_textTable_of_painting painting]
  rfl

theorem PaintMove.alike {c c' : Context K σ} (move : PaintMove c c') : c.Alike c' := by
  cases move <;> rfl

/-- Running what only paints keeps the context alike and shows no glyph. It fails, if at all, by an
error of its own. -/
theorem Paints.run {env : Environment K σ} {environment : RunState K σ → Environment K σ}
    {nested : NestedRun K σ} (restores : nested.Restores) {s : RunState K σ}
    (stable : ∀ t, t.place = s.place → environment t = env) {x : Action K σ Unit}
    (paints : Paints env s.toContext x) :
    let o := x.run environment nested s
    s.toContext.Alike o.state.toContext ∧ Entry.glyphs o.log = [] ∧
      ∀ e, o.result = .error e → e.IsLocal := by
  have keeps : paintManner.monitor.Keeps nested s.depth fun fault c log =>
      fault = none ∧ s.toContext.Alike c ∧ Entry.glyphs log = [] := by
    refine ⟨?_, ?_, ?_⟩
    · rintro fault log before after ⟨none, alike, silent⟩ move
      exact ⟨none, alike.trans (PaintMove.alike move), silent⟩
    · rintro fault log c e ⟨none, alike, silent⟩ (noGlyph : e.glyph? = .none)
      exact ⟨none, alike, by rw [Entry.glyphs_append, silent, Entry.glyphs_event, noGlyph]; rfl⟩
    · rintro fault log content scope setup t _ _ ⟨_, opens⟩
      exact opens.elim
  have start : (none : Option ContentError) = none ∧ s.toContext.Alike s.toContext ∧
      Entry.glyphs ([] : List (Entry K σ)) = [] :=
    ⟨rfl, rfl, rfl⟩
  obtain ⟨fault, ⟨none, alike, silent⟩, -, fails⟩ :=
    Action.Behaves.run restores stable keeps start paints
  exact ⟨alike, silent, fun e he => (fails e he).2 none⟩

end Operators

/-- The options with neither glyph procedures nor pattern cells. -/
def Options.unexpanded (options : Options) : Options :=
  { options with expandPatterns := false, runGlyphProcedures := false }

namespace RunState.Alike

variable {s t : RunState K σ}

theorem enter (alike : s.Alike t) {setup setup' : GraphicsState K σ → GraphicsState K σ}
    (starts : ∀ s t : GraphicsState K σ, s.Alike t → (setup s).Alike (setup' t)) :
    (s.enter setup).Alike (t.enter setup') where
  context := .of_parts (starts _ _ alike.context.state) rfl rfl rfl
  depth := congrArg (· + 1) alike.depth
  index := alike.index

/-- A stream goes on or ends after an operator as it does in a state that is alike. -/
theorem ending? (alike : s.Alike t) (result : Except OperatorError Unit) :
    s.ending? result = t.ending? result := by
  cases result with
  | ok _ => rfl
  | error e =>
      have same : s.react e = t.react e := by
        cases e <;> simp only [RunState.react, Context.inCompatibilitySection, alike.depth,
          alike.context.compatibility]
      simp only [RunState.ending?, same]

end RunState.Alike

/-- Two operators after which streams go on from states that are alike, or end in the same way. -/
structure Outcome.GoOnAlike (o o' : Outcome OperatorError K σ Unit) : Prop where
  ending : ∀ s : RunState K σ, s.ending? o.result = s.ending? o'.result
  state : o.state.Alike o'.state
  glyphs : Entry.glyphs o.log = Entry.glyphs o'.log

namespace StreamSettings

/-- A stream that is painted with neither glyph procedures nor pattern cells. -/
def painting (options : Options) (resolver : Resolver K σ) (scope : σ) (nested : NestedRun K σ) :
    StreamSettings K σ :=
  { RunSettings.graphics options.unexpanded .identity resolver with scope, nested }

/-- A stream in which text is found. -/
def placing (options : Options) (resolver : Resolver K σ) (scope : σ) (nested : NestedRun K σ) :
    StreamSettings K σ :=
  { RunSettings.text options resolver with scope, nested }

variable (options : Options) (resolver : Resolver K σ) (scope : σ) {nested nested' : NestedRun K σ}
variable {s t : RunState K σ}

omit [Scalar K] in
/-- Of the glyphs around an operator none are its own doing but those that its action shows. -/
theorem glyphs_perform (stream : StreamSettings K σ) (index : Nat) (call : Call K)
    (s : RunState K σ) :
    Entry.glyphs (stream.perform index call s).log =
      Entry.glyphs ((stream.table.dispatch call).run (stream.environment stream.scope)
        stream.nested { s with index }).log := by
  have report (s : RunState K σ) (result : Except OperatorError Unit) :
      Entry.glyphs (stream.report call s result) = [] := by
    cases result with
    | ok _ => rfl
    | error e =>
        simp only [RunSettings.report]
        split <;> rfl
  simp only [perform, Entry.glyphs_append, report, Entry.glyphs_nil, List.append_nil,
    Entry.glyphs_cons_of_mark (x := .started _ _) rfl,
    Entry.glyphs_cons_of_mark (x := .finished _ _ _) rfl]

/-- The environments of the two streams make no difference to text. -/
theorem alike_environment (nested nested' : NestedRun K σ) (alike : s.Alike t) :
    ((painting options resolver scope nested).environment scope s).Alike
      ((placing options resolver scope nested').environment scope t) where
  maxDepth := rfl
  collectWarnings := rfl
  resolver := rfl
  scope := rfl
  place := congrArg₂ Place.mk alike.depth alike.index
  first := .inr rfl
  second := .inl rfl

/-- A painting operator in one stream, and nothing in the other. -/
theorem goOnAlike_of_painting (restores : nested.Restores) (call : Call K)
    (painted : call.operator.keyword ∈ Operators.paintingKeywords) (alike : s.Alike t) :
    Outcome.GoOnAlike
      ((Operators.graphicsTable.dispatch call).run
        ((painting options resolver scope nested).environment scope) nested s)
      ((Operators.textTable.dispatch call).run
        ((placing options resolver scope nested').environment scope) nested' t) := by
  have stable (u : RunState K σ) (same : u.place = s.place) :
      (painting options resolver scope nested).environment scope u =
        (painting options resolver scope nested).environment scope s := by
    simp only [RunSettings.environment, same]
  have paints : Operators.Paints
      ((painting options resolver scope nested).environment scope s) s.toContext
      (Operators.graphicsTable.dispatch call) :=
    Operators.paints_dispatchWithin rfl _ call (Operators.rank_lt_links call) painted _
  have place := Action.place_run restores
    ((painting options resolver scope nested).environment scope)
    (Operators.graphicsTable.dispatch call) s
  have ran := paints.run restores stable
  rw [Operators.dispatch_textTable_of_painting call painted, Action.run_pure]
  generalize (Operators.graphicsTable.dispatch call).run
    ((painting options resolver scope nested).environment scope) nested s = o at *
  obtain ⟨context, silent, fails⟩ := ran
  refine ⟨fun u => ?_, ⟨?_, ?_, ?_⟩, silent⟩
  · cases result : o.result with
    | ok _ => rfl
    | error e => exact u.ending?_of_isLocal (fails e result)
  · exact context.symm.trans alike.context
  · exact (congrArg Place.depth place).trans alike.depth
  · exact (congrArg Place.index place).trans alike.index

/-- After an operator the two streams go on alike, or end in the same way. -/
theorem goOnAlike_dispatch (nests : nested.Alike nested') (restores : nested.Restores)
    (call : Call K)
    (alike : s.Alike t) :
    Outcome.GoOnAlike
      ((Operators.graphicsTable.dispatch call).run
        ((painting options resolver scope nested).environment scope) nested s)
      ((Operators.textTable.dispatch call).run
        ((placing options resolver scope nested').environment scope) nested' t) := by
  by_cases painted : call.operator.keyword ∈ Operators.paintingKeywords
  · exact goOnAlike_of_painting options resolver scope restores call painted alike
  · have agrees := Operators.agrees_dispatchWithin (σ := σ) _ call
      (Operators.rank_lt_links call) painted
    have same := agrees.run (fun _ _ _ => rfl) nests
      (fun _ _ alike => alike_environment options resolver scope nested nested' alike) alike
    exact ⟨fun u => congrArg u.ending? same.result, same.state, same.glyphs⟩

theorem goOnAlike_perform (nests : nested.Alike nested') (restores : nested.Restores) (index : Nat)
    (call : Call K) (alike : s.Alike t) :
    ((painting options resolver scope nested).perform index call s).GoOnAlike
      ((placing options resolver scope nested').perform index call t) := by
  have started : RunState.Alike { s with index } { t with index } :=
    ⟨alike.context, alike.depth, rfl⟩
  have here := goOnAlike_dispatch options resolver scope nests restores
    call started
  refine ⟨here.ending, here.state, ?_⟩
  rw [glyphs_perform, glyphs_perform]
  exact here.glyphs

/-- The tokens of a stream place the same text in both streams. -/
theorem alike_runTokens (nests : nested.Alike nested') (restores : nested.Restores)
    (fault : Option ContentError) (operands : List (Operand K)) (count : Nat)
      (tokens : List (Token K))
    (alike : s.Alike t) :
    ((painting options resolver scope nested).runTokens fault operands count s tokens).Alike
      ((placing options resolver scope nested').runTokens fault operands count t tokens) := by
  induction tokens generalizing operands count s t with
  | nil => cases fault <;> exact ⟨rfl, alike, rfl⟩
  | cons token rest ih =>
      cases token with
      | operand v => exact ih _ _ alike
      | operator op =>
          have here := goOnAlike_perform options resolver scope nests
            restores count ⟨op, operands⟩ alike
          simp only [runTokens]
          generalize (painting options resolver scope nested).perform count ⟨op, operands⟩ s = o
            at *
          generalize (placing options resolver scope nested').perform count ⟨op, operands⟩ t = o'
            at *
          have ending : o.state.ending? o.result = o'.state.ending? o'.result :=
            (here.state.ending? _).trans (here.ending _)
          rw [ending]
          cases o'.state.ending? o'.result with
          | some result => exact ⟨rfl, here.state, here.glyphs⟩
          | none =>
              have later := ih [] (count + 1) here.state
              refine ⟨later.result, later.state, ?_⟩
              rw [Outcome.log_after, Outcome.log_after, Entry.glyphs_append, Entry.glyphs_append,
                here.glyphs, later.glyphs]

theorem alike_run (nests : nested.Alike nested') (restores : nested.Restores) (content : Bytes)
    (alike : s.Alike t) :
    ((painting options resolver scope nested).run content s).Alike
      ((placing options resolver scope nested').run content t) :=
  alike_runTokens options resolver scope nests restores _ _ _ _ alike

end StreamSettings

namespace RunSettings

/-- Nested streams place the same text. The induction is on the number of levels. -/
theorem alike_nestedRun (options : Options) (resolver : Resolver K σ) (levels : Nat) :
    ((graphics options.unexpanded .identity resolver).nestedRun levels).Alike
      ((text options resolver).nestedRun levels) := by
  induction levels with
  | zero =>
      intro content scope setup setup' s t starts alike
      simp only [nestedRun]
      split <;> split <;> exact ⟨rfl, alike, rfl⟩
  | succ levels ih =>
      intro content scope setup setup' s t starts alike
      by_cases limit : options.maxDepth ≤ s.depth
      · have limit' : options.maxDepth ≤ t.depth := alike.depth ▸ limit
        rw [nestedRun_of_limit _ _ _ _ _ limit, nestedRun_of_limit _ _ _ _ _ limit']
        exact ⟨rfl, alike, rfl⟩
      · have below := Nat.not_le.mp limit
        have below' : t.depth < options.maxDepth := alike.depth ▸ below
        have within := StreamSettings.alike_run options resolver scope ih
          (restores_nestedRun _ levels) content (alike.enter starts)
        rw [nestedRun_succ_of_lt _ _ _ _ _ below, nestedRun_succ_of_lt _ _ _ _ _ below']
        refine ⟨congrArg (Except.mapError OperatorError.fatal) within.result, alike, ?_⟩
        simp only [Entry.glyphs_append, Entry.glyphs_cons_of_mark (x := .opened _ _) rfl,
          Entry.glyphs_cons_of_mark (x := .closed _ _) rfl]
        exact congrArg (· ++ _) within.glyphs

/-- Finding the text of a page gives the same result as painting the page and shows the same glyphs,
in the same order and with all that is told about them, if glyph procedures and pattern cells are
left out. -/
theorem glyphs_page_text (options : Options) (resolver : Resolver K σ) (content : Bytes)
    (scope : σ) :
    let painted := (graphics options.unexpanded .identity resolver).page content scope
    let placed := (text options resolver).page content scope
    placed.result = painted.result ∧ Entry.glyphs placed.log = Entry.glyphs painted.log := by
  have same := StreamSettings.alike_run options resolver scope
    (alike_nestedRun options resolver options.maxDepth)
    (restores_nestedRun _ _) content (s := .initial .identity) (t := .initial .identity)
      ⟨rfl, rfl, rfl⟩
  exact ⟨same.result.symm, same.glyphs.symm⟩

end RunSettings

end PdfContent
