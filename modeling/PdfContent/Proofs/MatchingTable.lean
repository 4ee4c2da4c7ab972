import PdfContent.Proofs.MatchingOperators

/-!
# The table for painting on variants

Setters do not look at the selected font, so they match themselves, as all other operators of the
table for painting do. So whatever is dispatched matches itself, with what it stands for.
-/

namespace PdfContent.Operators

open PdfContent.Action (Matches)

variable {K σ : Type} {ρ γ : Bytes → Bytes → Prop} [Scalar K]

/-! ### Setters -/

/-- A change that operands determine and that does not look at the selected font. -/
def ReturnsBlind (change : Except OperatorError (GraphicsState K σ → GraphicsState K σ)) : Prop :=
  ∀ f, change = .ok f → FontBlind f

omit [Scalar K] in
theorem returnsBlind_bind {α : Type} {x : Except OperatorError α}
    {f : α → Except OperatorError (GraphicsState K σ → GraphicsState K σ)}
    (each : ∀ a, ReturnsBlind (f a)) : ReturnsBlind (x >>= f) := by
  intro change given
  obtain ⟨a, _, made⟩ := exists_of_bind_ok given
  exact each a change made

omit [Scalar K] in
theorem returnsBlind_ok {f : GraphicsState K σ → GraphicsState K σ} (blind : FontBlind f) :
    ReturnsBlind (.ok f) := by
  rintro _ ⟨⟩
  exact blind

omit [Scalar K] in
theorem returnsBlind_error (e : OperatorError) : ReturnsBlind (K := K) (σ := σ) (.error e) := by
  rintro _ ⟨⟩

omit [Scalar K] in
/-- A change to one parameter, which is read from the operands. -/
theorem returnsBlind_parameter {α : Type} (read : Except OperatorError α)
    {set : α → GraphicsState K σ → GraphicsState K σ} (blind : ∀ a, FontBlind (set a)) :
    ReturnsBlind (do let a ← read; return set a) :=
  returnsBlind_bind fun a => returnsBlind_ok (blind a)

theorem returnsBlind_setLineCap (call : Call K) : ReturnsBlind (setLineCap (σ := σ) call) :=
  returnsBlind_bind fun value => by
    split
    · exact returnsBlind_ok fun _ _ => ⟨rfl, rfl⟩
    · exact returnsBlind_error _

theorem returnsBlind_setLineJoin (call : Call K) : ReturnsBlind (setLineJoin (σ := σ) call) :=
  returnsBlind_bind fun value => by
    split
    · exact returnsBlind_ok fun _ _ => ⟨rfl, rfl⟩
    · exact returnsBlind_error _

theorem returnsBlind_setRenderMode (call : Call K) :
    ReturnsBlind (setRenderMode (σ := σ) call) :=
  returnsBlind_bind fun value => by
    split
    · exact returnsBlind_ok fun _ _ => ⟨rfl, rfl⟩
    · exact returnsBlind_error _

theorem returnsBlind_setDash (call : Call K) : ReturnsBlind (setDash (σ := σ) call) :=
  returnsBlind_bind fun _ => returnsBlind_bind fun _ =>
    returnsBlind_parameter _ fun _ _ _ => ⟨rfl, rfl⟩

/-! ### The table -/

/-- The action of an entry, if it has one of its own, matches itself. -/
def MatchingEntry (ρ γ : Bytes → Bytes → Prop) (e : TableEntry K (Action K σ)) : Prop :=
  match e.handler with
  | .action run => ∀ call, SelfMatching ρ γ (run call)
  | .sequence _ => True

section Entries

variable {keyword : String} {minOperands : Nat}

omit [Scalar K] in
theorem matchingEntry_action {run : Call K → Action K σ Unit}
    (each : ∀ call, SelfMatching ρ γ (run call)) :
    MatchingEntry ρ γ (entry keyword minOperands run) := each

omit [Scalar K] in
theorem matchingEntry_setter
    {change : Call K → Except OperatorError (GraphicsState K σ → GraphicsState K σ)}
    (blind : ∀ call, ReturnsBlind (change call)) :
    MatchingEntry ρ γ (setter keyword minOperands change) :=
  fun call => .read fun f given => .update (blind call f given)

omit [Scalar K] in
theorem matchingEntry_compound
    (steps : Call K → Except OperatorError (List (String × List (Operand K)))) :
    MatchingEntry ρ γ (compound (σ := σ) keyword minOperands steps) := trivial

omit [Scalar K] in
theorem matchingEntry_ignored :
    MatchingEntry ρ γ (ignored (K := K) (σ := σ) keyword minOperands) := fun _ => .pure trivial

theorem matchingEntry_textSetter {set : K → TextState K σ → TextState K σ}
    (blind : ∀ x t font, set x { t with font } = { set x t with font } ∧ (set x t).font = t.font) :
    MatchingEntry ρ γ (textSetter keyword set) :=
  matchingEntry_setter fun call => returnsBlind_parameter (call.number 0) fun x s font =>
    ⟨congrArg (fun text => { s with text }) (blind x s.text font).1, (blind x s.text font).2⟩

theorem matchingEntry_deviceSetter (target : PaintTarget) (space : ColorSpace) :
    MatchingEntry ρ γ (deviceSetter (K := K) (σ := σ) keyword target space) :=
  matchingEntry_setter fun _ => returnsBlind_parameter _ fun _ _ _ => by
    cases target <;> exact ⟨rfl, rfl⟩

end Entries

theorem matchingEntry_stateEntries :
    ∀ e ∈ stateEntries (K := K) (σ := σ), MatchingEntry ρ γ e := by
  simp only [stateEntries, List.forall_mem_cons, List.not_mem_nil, false_implies, implies_true,
    and_true]
  exact ⟨matchingEntry_action matches_save, matchingEntry_action fun _ => matches_restoreState,
    matchingEntry_setter fun call => returnsBlind_parameter call.matrix fun _ _ _ => ⟨rfl, rfl⟩,
    matchingEntry_action matches_setParameters,
    matchingEntry_setter fun call => returnsBlind_parameter (call.number 0) fun _ _ _ => ⟨rfl, rfl⟩,
    matchingEntry_setter returnsBlind_setLineCap, matchingEntry_setter returnsBlind_setLineJoin,
    matchingEntry_setter fun call => returnsBlind_parameter (call.number 0) fun _ _ _ => ⟨rfl, rfl⟩,
    matchingEntry_setter returnsBlind_setDash,
    matchingEntry_setter fun call => returnsBlind_parameter (call.name 0) fun _ _ _ => ⟨rfl, rfl⟩,
    matchingEntry_setter fun call => returnsBlind_parameter (call.number 0) fun _ _ _ =>
      ⟨rfl, rfl⟩⟩

theorem matchingEntry_textStateEntries :
    ∀ e ∈ textStateEntries (K := K) (σ := σ), MatchingEntry ρ γ e := by
  simp only [textStateEntries, List.forall_mem_cons, List.not_mem_nil, false_implies, implies_true,
    and_true, matchingEntry_compound, true_and]
  exact ⟨matchingEntry_action matches_beginText, matchingEntry_action matches_endText,
    matchingEntry_textSetter fun _ _ _ => ⟨rfl, rfl⟩,
    matchingEntry_textSetter fun _ _ _ => ⟨rfl, rfl⟩,
    matchingEntry_textSetter fun _ _ _ => ⟨rfl, rfl⟩,
    matchingEntry_textSetter fun _ _ _ => ⟨rfl, rfl⟩,
    matchingEntry_action matches_setFont, matchingEntry_setter returnsBlind_setRenderMode,
    matchingEntry_textSetter fun _ _ _ => ⟨rfl, rfl⟩,
    matchingEntry_action matches_moveText, matchingEntry_action matches_setTextMatrix,
    matchingEntry_action matches_nextLine⟩

theorem matchingEntry_textShowingEntries (glyphs : ∀ a b, γ a b → ρ a b) :
    ∀ e ∈ textShowingEntries (K := K) (σ := σ), MatchingEntry ρ γ e := by
  simp only [textShowingEntries, List.forall_mem_cons, List.not_mem_nil, false_implies,
    implies_true, and_true, matchingEntry_compound, matchingEntry_ignored]
  exact ⟨matchingEntry_action (matches_showText glyphs),
    matchingEntry_action (matches_showTextAdjusted glyphs)⟩

omit [Scalar K] in
theorem matchingEntry_markedEntries :
    ∀ e ∈ markedEntries (K := K) (σ := σ), MatchingEntry ρ γ e := by
  simp only [markedEntries, List.forall_mem_cons, List.not_mem_nil, false_implies, implies_true,
    and_true]
  exact ⟨matchingEntry_action matches_beginMarked,
    matchingEntry_action matches_beginMarkedWithProperties,
    matchingEntry_action fun _ => .emit (.same _), matchingEntry_action matches_markPoint,
    matchingEntry_action matches_markPointWithProperties,
    matchingEntry_action fun _ => matches_changeCompatibility (· + 1),
    matchingEntry_action fun _ => matches_changeCompatibility (· - 1)⟩

theorem matchingEntry_pathConstructionEntries :
    ∀ e ∈ pathConstructionEntries (K := K) (σ := σ), MatchingEntry ρ γ e := by
  simp only [pathConstructionEntries, List.forall_mem_cons, List.not_mem_nil, false_implies,
    implies_true, and_true]
  exact ⟨matchingEntry_action matches_moveTo, matchingEntry_action matches_lineTo,
    matchingEntry_action matches_curveTo, matchingEntry_action matches_curveFromCurrent,
    matchingEntry_action matches_curveIntoEnd, matchingEntry_action matches_closePath,
    matchingEntry_action matches_appendRectangle⟩

theorem matchingEntry_pathPaintingEntries :
    ∀ e ∈ pathPaintingEntries (K := K) (σ := σ), MatchingEntry ρ γ e := by
  have finishing (keyword : String) (painting : Painting) :
      MatchingEntry ρ γ (entry (K := K) (σ := σ) keyword 0 (finishPath painting)) :=
    matchingEntry_action (matches_finishPath painting)
  have closing (keyword next : String) :
      MatchingEntry ρ γ (closeThen (K := K) (σ := σ) keyword next) := matchingEntry_compound _
  simp only [pathPaintingEntries, List.forall_mem_cons, List.not_mem_nil, false_implies,
    implies_true, and_true, finishing, closing, true_and]
  exact ⟨matchingEntry_action (matches_setPendingClip _),
    matchingEntry_action (matches_setPendingClip _), matchingEntry_action matches_paintShading⟩

theorem matchingEntry_colorEntries :
    ∀ e ∈ colorEntries (K := K) (σ := σ), MatchingEntry ρ γ e := by
  simp only [colorEntries, List.forall_mem_cons, List.not_mem_nil, false_implies, implies_true,
    and_true, matchingEntry_deviceSetter]
  exact ⟨matchingEntry_action (matches_selectSpace _), matchingEntry_action (matches_selectSpace _),
    matchingEntry_action (matches_selectColor _ _), matchingEntry_action (matches_selectColor _ _),
    matchingEntry_action (matches_selectColor _ _), matchingEntry_action (matches_selectColor _ _)⟩

/-- The operators of the table for painting match themselves. -/
theorem matchingEntry_graphicsEntries (glyphs : ∀ a b, γ a b → ρ a b) :
    ∀ e ∈ sharedEntries (K := K) (σ := σ) ++ paintingEntries, MatchingEntry ρ γ e := by
  simp only [sharedEntries, paintingEntries, inlineImageEntries, formEntries,
    List.forall_mem_append, List.forall_mem_singleton]
  exact ⟨⟨⟨⟨⟨matchingEntry_stateEntries, matchingEntry_textStateEntries⟩,
    matchingEntry_textShowingEntries glyphs⟩, matchingEntry_markedEntries⟩,
    matchingEntry_action matches_invoke⟩,
    ⟨⟨⟨matchingEntry_action matches_showInlineImage, matchingEntry_pathConstructionEntries⟩,
    matchingEntry_pathPaintingEntries⟩, matchingEntry_colorEntries⟩⟩

/-- Whatever operator it is, known or not, it matches itself. -/
theorem matches_dispatch (glyphs : ∀ a b, γ a b → ρ a b) (call : Call K) :
    SelfMatching ρ γ ((graphicsTable (σ := σ)).dispatch call) := by
  have begins (call : Call K) :
      SelfMatching ρ γ ((graphicsTable (K := K) (σ := σ)).expand call).1 := by
    rcases OperatorTable.expand_cases graphicsTable call with ⟨e, _, same⟩ | ⟨entry, found,
      ⟨run, kind, same⟩ | ⟨steps, _, ⟨e, _, same⟩ | ⟨calls, _, same⟩⟩⟩ <;> rw [same]
    · exact .fail e
    · unfold graphicsTable at found
      have matching := matchingEntry_graphicsEntries glyphs entry
        (OperatorTable.mem_of_find?_ofList found).1
      simp only [MatchingEntry, kind] at matching
      exact matching call
    · exact .fail e
    · exact .pure trivial
  exact OperatorTable.dispatchWithin_induction ranked_graphicsTable
    (P := fun _ x => SelfMatching ρ γ x) (fun _ => .pure trivial)
    (fun first later => .next first (later (.initial .identity))) (fun _ => True)
    (fun call _ => ⟨fun _ => begins call, fun _ _ => trivial⟩) _ call (rank_lt_links call) trivial
    (.initial .identity)

end PdfContent.Operators
