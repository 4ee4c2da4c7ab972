import PdfContent.Proofs.Discipline
import PdfContent.Proofs.Running

/-!
# The discipline of the built-in tables

Each built-in operator other than `BX` and `EX` keeps to the discipline, in one of two ways at least:
either it makes no remarks, or it makes some and never fails by the depth limit. An operator that
stands for others keeps to it in the same way as those.
-/

namespace PdfContent

variable {K σ : Type} [Scalar K]

/-- What an entry's own action does keeps to the discipline. An entry that stands for others fails by
itself only with errors about arguments. -/
def TableEntry.KeepsOrder (remarks : Bool) (e : TableEntry K (Action K σ)) : Prop :=
  match e.handler with
  | .action run => ∀ env c call, Orderly remarks env c (run call)
  | .sequence steps => ∀ call, ArgumentResult (steps call)

namespace Operators

/-- The operators that make remarks. -/
def remarkingKeywords : List String := ["Tf", "Tj", "TJ", "'", "\"", "l", "c", "v", "y"]

/-- The operators that can fail by the depth limit. -/
def openingKeywords : List String := ["Do", "S", "s", "f", "F", "f*", "B", "B*", "b", "b*", "n"]

/-- The operator keeps to the discipline with remarks, or without. -/
def Suits (remarks : Bool) (keyword : String) : Prop :=
  keyword ∉ ["BX", "EX"] ∧ keyword ∉ if remarks then openingKeywords else remarkingKeywords

instance (remarks : Bool) (keyword : String) : Decidable (Suits remarks keyword) :=
  inferInstanceAs (Decidable (_ ∧ _))

variable {remarks : Bool} {keyword : String} {minOperands : Nat}

section Entries

variable {run : Call K → Action K σ Unit}

omit [Scalar K] in
theorem keepsOrder_action (orderly : ∀ env c call, Orderly remarks env c (run call)) :
    (entry keyword minOperands run).KeepsOrder remarks :=
  orderly

omit [Scalar K] in
theorem keepsOrder_remarking (keyword : String) (remarking : keyword ∈ remarkingKeywords)
    (orderly : ∀ env c call, Orderly true env c (run call)) (suits : Suits remarks keyword) :
    (entry keyword minOperands run).KeepsOrder remarks := by
  cases remarks with
  | true => exact orderly
  | false => exact absurd remarking suits.2

omit [Scalar K] in
theorem keepsOrder_opening (keyword : String) (opening : keyword ∈ openingKeywords)
    (orderly : ∀ env c call, Orderly false env c (run call)) (suits : Suits remarks keyword) :
    (entry keyword minOperands run).KeepsOrder remarks := by
  cases remarks with
  | true => exact absurd opening suits.2
  | false => exact orderly

omit [Scalar K] in
theorem keepsOrder_setter
    {change : Call K → Except OperatorError (GraphicsState K σ → GraphicsState K σ)}
    (argument : ∀ call, ArgumentResult (change call)) :
    (setter keyword minOperands change).KeepsOrder remarks :=
  fun _ _ call => .read (argument call) fun _ => .updateState _

omit [Scalar K] in
theorem keepsOrder_ignored : (ignored (K := K) (σ := σ) keyword minOperands).KeepsOrder remarks :=
  fun _ _ _ => .pure ()

theorem keepsOrder_textSetter (set : K → TextState K σ → TextState K σ) :
    (textSetter keyword set).KeepsOrder remarks :=
  keepsOrder_setter fun call => (call.argument_number 0).map _

theorem keepsOrder_deviceSetter (target : PaintTarget) (space : ColorSpace) :
    (deviceSetter (K := K) (σ := σ) keyword target space).KeepsOrder remarks :=
  keepsOrder_setter fun _ => (argument_colorComponents _ _ _).map _

omit [Scalar K] in
theorem keepsOrder_closeThen (next : String) :
    (closeThen (K := K) (σ := σ) keyword next).KeepsOrder remarks :=
  fun _ => .ok _

end Entries

theorem keepsOrder_stateEntries :
    ∀ e ∈ stateEntries (K := K) (σ := σ), e.KeepsOrder remarks := by
  simp only [stateEntries, List.forall_mem_cons, List.not_mem_nil, false_implies, implies_true,
    and_true]
  exact ⟨keepsOrder_action fun _ _ _ => .modify rfl rfl,
    keepsOrder_action fun _ _ _ => orderly_restoreState,
    keepsOrder_setter fun call => call.argument_matrix.map _,
    keepsOrder_action fun _ _ => orderly_setParameters,
    keepsOrder_setter fun call => (call.argument_number 0).map _,
    keepsOrder_setter argument_setLineCap, keepsOrder_setter argument_setLineJoin,
    keepsOrder_setter fun call => (call.argument_number 0).map _,
    keepsOrder_setter fun call => (call.argument_read 0 _ _).bind fun _ =>
      (call.argument_number 1).bind fun _ => (argument_dashLengths call _).map _,
    keepsOrder_setter fun call => (call.argument_read 0 _ _).map _,
    keepsOrder_setter fun call => (call.argument_number 0).map _⟩

theorem keepsOrder_textStateEntries : ∀ e ∈ textStateEntries (K := K) (σ := σ),
    Suits remarks e.keyword → e.KeepsOrder remarks := by
  simp only [textStateEntries, List.forall_mem_cons, List.not_mem_nil, false_implies, implies_true,
    and_true, keepsOrder_textSetter, true_and]
  exact ⟨fun _ => keepsOrder_action fun _ _ => orderly_beginText,
    fun _ => keepsOrder_action fun _ _ => orderly_endText,
    keepsOrder_remarking "Tf" (by decide) fun _ _ => orderly_setFont,
    fun _ => keepsOrder_setter argument_setRenderMode,
    fun _ => keepsOrder_action fun _ _ => orderly_moveText,
    fun _ call => (call.argument_number 1).map _,
    fun _ => keepsOrder_action fun _ _ => orderly_setTextMatrix,
    fun _ => keepsOrder_action fun _ _ => orderly_nextLine⟩

theorem keepsOrder_textShowingEntries : ∀ e ∈ textShowingEntries (K := K) (σ := σ),
    Suits remarks e.keyword → e.KeepsOrder remarks := by
  simp only [textShowingEntries, List.forall_mem_cons, List.not_mem_nil, false_implies,
    implies_true, and_true, keepsOrder_ignored]
  exact ⟨keepsOrder_remarking "Tj" (by decide) fun _ _ => orderly_showText,
    keepsOrder_remarking "TJ" (by decide) fun _ _ => orderly_showTextAdjusted, fun _ _ => .ok _,
    fun _ _ => .ok _⟩

omit [Scalar K] in
theorem keepsOrder_markedEntries : ∀ e ∈ markedEntries (K := K) (σ := σ),
    Suits remarks e.keyword → e.KeepsOrder remarks := by
  simp only [markedEntries, List.forall_mem_cons, List.not_mem_nil, false_implies, implies_true,
    and_true]
  exact ⟨fun _ => keepsOrder_action fun _ _ => orderly_beginMarked,
    fun _ => keepsOrder_action fun _ _ => orderly_beginMarkedWithProperties,
    fun _ => keepsOrder_action fun _ _ _ => .emit trivial,
    fun _ => keepsOrder_action fun _ _ => orderly_markPoint,
    fun _ => keepsOrder_action fun _ _ => orderly_markPointWithProperties,
    fun suits => absurd (List.mem_cons_self ..) suits.1,
    fun suits => absurd (List.mem_cons_of_mem _ (List.mem_cons_self ..)) suits.1⟩

theorem keepsOrder_pathConstructionEntries :
    ∀ e ∈ pathConstructionEntries (K := K) (σ := σ),
      Suits remarks e.keyword → e.KeepsOrder remarks := by
  simp only [pathConstructionEntries, List.forall_mem_cons, List.not_mem_nil, false_implies,
    implies_true, and_true]
  exact ⟨fun _ => keepsOrder_action fun _ _ => orderly_moveTo,
    keepsOrder_remarking "l" (by decide) fun _ _ => orderly_lineTo,
    keepsOrder_remarking "c" (by decide) fun _ _ => orderly_curveTo,
    keepsOrder_remarking "v" (by decide) fun _ _ => orderly_curveFromCurrent,
    keepsOrder_remarking "y" (by decide) fun _ _ => orderly_curveIntoEnd,
    fun _ => keepsOrder_action fun _ _ => orderly_closePath,
    fun _ => keepsOrder_action fun _ _ => orderly_appendRectangle⟩

theorem keepsOrder_pathPaintingEntries : ∀ e ∈ pathPaintingEntries (K := K) (σ := σ),
    Suits remarks e.keyword → e.KeepsOrder remarks := by
  have finishing (keyword : String) (opening : keyword ∈ openingKeywords) (painting : Painting) :
      Suits remarks keyword →
        (entry (K := K) (σ := σ) keyword 0 (finishPath painting)).KeepsOrder remarks :=
    keepsOrder_opening keyword opening fun _ _ => orderly_finishPath painting
  simp only [pathPaintingEntries, List.forall_mem_cons, List.not_mem_nil, false_implies,
    implies_true, and_true, keepsOrder_closeThen, true_and]
  exact ⟨finishing "S" (by decide) _, finishing "f" (by decide) _, finishing "F" (by decide) _,
    finishing "f*" (by decide) _, finishing "B" (by decide) _, finishing "B*" (by decide) _,
    finishing "n" (by decide) _, fun _ => keepsOrder_action fun _ _ _ => .modify rfl rfl,
    fun _ => keepsOrder_action fun _ _ _ => .modify rfl rfl,
    fun _ => keepsOrder_action fun _ _ => orderly_paintShading⟩

theorem keepsOrder_colorEntries :
    ∀ e ∈ colorEntries (K := K) (σ := σ), e.KeepsOrder remarks := by
  simp only [colorEntries, List.forall_mem_cons, List.not_mem_nil, false_implies, implies_true,
    and_true, keepsOrder_deviceSetter]
  exact ⟨keepsOrder_action fun _ _ => orderly_selectSpace .stroke,
    keepsOrder_action fun _ _ => orderly_selectSpace .fill,
    keepsOrder_action fun _ _ => orderly_selectColor .stroke false,
    keepsOrder_action fun _ _ => orderly_selectColor .stroke true,
    keepsOrder_action fun _ _ => orderly_selectColor .fill false,
    keepsOrder_action fun _ _ => orderly_selectColor .fill true⟩

theorem keepsOrder_sharedEntries : ∀ e ∈ sharedEntries (K := K) (σ := σ),
    Suits remarks e.keyword → e.KeepsOrder remarks := by
  simp only [sharedEntries, List.forall_mem_append]
  refine ⟨⟨⟨⟨fun e mem _ => keepsOrder_stateEntries e mem, keepsOrder_textStateEntries⟩,
    keepsOrder_textShowingEntries⟩, keepsOrder_markedEntries⟩, ?_⟩
  simp only [formEntries, List.forall_mem_singleton]
  exact keepsOrder_opening "Do" (by decide) fun _ _ => orderly_invoke

theorem keepsOrder_paintingEntries : ∀ e ∈ paintingEntries (K := K) (σ := σ),
    Suits remarks e.keyword → e.KeepsOrder remarks := by
  simp only [paintingEntries, List.forall_mem_append]
  refine ⟨⟨⟨?_, keepsOrder_pathConstructionEntries⟩, keepsOrder_pathPaintingEntries⟩,
    fun e mem _ => keepsOrder_colorEntries e mem⟩
  simp only [inlineImageEntries, List.forall_mem_singleton]
  exact fun _ => keepsOrder_action fun _ _ => orderly_showInlineImage

/-! ### Carrying out operators -/

section Tables

variable {t : ContentTable K σ} (standard : IsStandard t)

include standard

theorem ranked_of_isStandard : t.Ranked rank := by
  rcases standard with rfl | rfl
  · exact ranked_graphicsTable
  · exact ranked_textTable

/-- The built-in tables know the same operators. -/
theorem exists_find?_of_mem (mem : keyword ∈ sharedKeywords ++ paintingKeywords) :
    ∃ e, t.find? keyword = some e := by
  rcases List.mem_append.mp mem with shared | painting
  · rw [← keywords_sharedEntries (K := K) (σ := σ)] at shared
    obtain ⟨e, listed, rfl⟩ := List.mem_map.mp shared
    exact ⟨e, find?_of_mem_sharedEntries standard listed⟩
  · rcases standard with rfl | rfl
    · obtain ⟨e, _, found, _⟩ := find?_graphicsTable_of_painting (K := K) (σ := σ) painting
      exact ⟨e, found⟩
    · exact ⟨_, find?_textTable_of_painting painting⟩

theorem keepsOrder_of_find? {e : TableEntry K (Action K σ)} (found : t.find? keyword = some e)
    (suits : Suits remarks keyword) : e.KeepsOrder remarks := by
  rcases standard with rfl | rfl
  · rw [find?_graphicsTable, Option.or_eq_some_iff] at found
    rcases found with painting | ⟨_, shared⟩
    · obtain ⟨mem, rfl⟩ := OperatorTable.mem_of_find?_ofList painting
      exact keepsOrder_paintingEntries e mem suits
    · obtain ⟨mem, rfl⟩ := OperatorTable.mem_of_find?_ofList shared
      exact keepsOrder_sharedEntries e mem suits
  · rw [find?_textTable, Option.or_eq_some_iff, Option.map_eq_some_iff] at found
    rcases found with ⟨_, _, rfl⟩ | ⟨_, shared⟩
    · exact keepsOrder_ignored
    · obtain ⟨mem, rfl⟩ := OperatorTable.mem_of_find?_ofList shared
      exact keepsOrder_sharedEntries e mem suits

/-- What an operator stands for is known and keeps to the discipline in the same way. -/
theorem suits_of_mem_expand {call step : Call K} (among : step ∈ (t.expand call).2)
    (suits : Suits remarks call.operator.keyword) :
    Suits remarks step.operator.keyword ∧
      step.operator.keyword ∈ sharedKeywords ++ paintingKeywords := by
  have link : (call.operator.keyword, step.operator.keyword) ∈ textLinks ++ paintLinks := by
    rcases standard with rfl | rfl
    · unfold graphicsTable at among
      refine OperatorTable.standsFor_ofList (P := fun k next => (k, next) ∈ textLinks ++ paintLinks)
        (List.forall_mem_append.mpr ⟨fun e mem => ?_, fun e mem => ?_⟩) call step among
      · exact (standsFor_sharedEntries e mem).mono fun _ => List.mem_append_left _
      · exact (standsFor_paintingEntries e mem).mono fun _ => List.mem_append_right _
    · unfold textTable at among
      refine OperatorTable.standsFor_ofList (P := fun k next => (k, next) ∈ textLinks ++ paintLinks)
        (List.forall_mem_append.mpr ⟨fun e mem => ?_, fun e mem => ?_⟩) call step among
      · exact (standsFor_sharedEntries e mem).mono fun _ => List.mem_append_left _
      · obtain ⟨_, _, rfl⟩ := List.mem_map.mp mem
        trivial
  have all : ∀ remarks, ∀ link ∈ textLinks ++ paintLinks, Suits remarks link.1 →
      Suits remarks link.2 ∧ link.2 ∈ sharedKeywords ++ paintingKeywords := by decide
  exact all remarks _ link suits

theorem orderly_expand (env : Environment K σ) (c : Context K σ) {call : Call K}
    {e : TableEntry K (Action K σ)} (found : t.find? call.operator.keyword = some e)
    (suits : Suits remarks call.operator.keyword) : Orderly remarks env c (t.expand call).1 := by
  have keeps := keepsOrder_of_find? standard found suits
  rw [OperatorTable.expand, found]
  dsimp only
  split
  · exact .throw trivial
  · cases kind : e.handler with
    | action run =>
        simp only [TableEntry.KeepsOrder, kind] at keeps
        exact keeps env c call
    | sequence steps =>
        simp only [TableEntry.KeepsOrder, kind] at keeps
        have argument := keeps call
        dsimp only
        cases given : steps call with
        | error e => exact .throw ((argument e given).permits remarks)
        | ok calls => exact .pure ()

/-- A known operator keeps to the discipline, with what it stands for. -/
theorem orderly_dispatch (env : Environment K σ) {call : Call K} {e : TableEntry K (Action K σ)}
    (found : t.find? call.operator.keyword = some e) (suits : Suits remarks call.operator.keyword)
    (c : Context K σ) : Orderly remarks env c (t.dispatch call) := by
  refine OperatorTable.dispatchWithin_induction (ranked_of_isStandard standard)
    (P := Orderly remarks env) (fun _ => .pure ()) (fun first later => .bind first fun _ => later)
    (fun call => Suits remarks call.operator.keyword ∧ ∃ e, t.find? call.operator.keyword = some e)
    ?_ _ call (rank_lt_links call) ⟨suits, e, found⟩ c
  rintro call ⟨suits, e, found⟩
  refine ⟨fun c => orderly_expand standard env c found suits, fun step among => ?_⟩
  obtain ⟨suits, known⟩ := suits_of_mem_expand standard among suits
  exact ⟨suits, exists_find?_of_mem standard known⟩

theorem dispatch_beginCompatibility {call : Call K} (keyword : call.operator.keyword = "BX") :
    t.dispatch call = beginCompatibility call :=
  dispatchWithin_shared standard (by simp [sharedEntries, markedEntries]) keyword (Nat.zero_le _) _

theorem dispatch_endCompatibility {call : Call K} (keyword : call.operator.keyword = "EX") :
    t.dispatch call = endCompatibility call :=
  dispatchWithin_shared standard (by simp [sharedEntries, markedEntries]) keyword (Nat.zero_le _) _

end Tables

omit [Scalar K] in
/-- An operator that the table does not know fails before it has done anything. -/
theorem dispatch_of_unknown {t : ContentTable K σ} {call : Call K}
    (unknown : t.find? call.operator.keyword = none) :
    t.dispatch call = throw (.unknownOperator call.operator.keyword) := by
  rw [OperatorTable.dispatch, OperatorTable.dispatchWithin, unknown]

/-- Other operators than those of compatibility sections keep to the discipline in one way or the
other. -/
theorem exists_suits (other : keyword ∉ ["BX", "EX"]) : ∃ remarks, Suits remarks keyword := by
  have apart : ∀ k ∈ remarkingKeywords, k ∉ openingKeywords := by decide
  by_cases remarking : keyword ∈ remarkingKeywords
  · exact ⟨true, other, apart keyword remarking⟩
  · exact ⟨false, other, remarking⟩

end Operators

end PdfContent
