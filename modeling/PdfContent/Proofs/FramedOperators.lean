import PdfContent.Proofs.Framing
import PdfContent.Proofs.StandardOperators

/-!
# Built-in operators above saved states

Every operator of the graphics table but `q` and `Q` does the same wherever it stands: above other
saved states, in a stream of another depth and as another operator of it. What opens a nested stream
is left out. Below the depth limit a form and a pattern cell always open one.
-/

namespace PdfContent.Operators

open PdfContent.Action (Framed)

variable {K σ : Type} [Scalar K] {env : Environment K σ} {place : Place}
  {below : List (GraphicsState K σ)} {c : Context K σ}

/-- An action does the same above any saved states, at any place below the depth limit. -/
def Portable (env : Environment K σ) (c : Context K σ) (x : Action K σ Unit) : Prop :=
  ∀ place below, place.depth < env.options.maxDepth → Framed env place below c x x

/-! ### The graphics state and text -/

omit [Scalar K] in
theorem framed_setter {change : Except OperatorError (GraphicsState K σ → GraphicsState K σ)}
    (isLocal : LocalResult change) :
    Framed env place below c (Action.ofExcept change >>= fun f => Action.updateState f)
      (Action.ofExcept change >>= fun f => Action.updateState f) :=
  .read isLocal fun _ _ => .updateState _

omit [Scalar K] in
theorem framed_setParameters (call : Call K) :
    Framed env place below c (setParameters (σ := σ) call) (setParameters call) :=
  .read (call.localResult_name 0) fun _ _ => .environment
    (.read (localResult_require _ _ _) fun _ _ => .updateState _)

omit [Scalar K] in
theorem framed_textObject (keyword : String) :
    Framed env place below c (textObject keyword : Action K σ (TextObject K))
      (textObject keyword) := by
  refine .context ?_
  rw [Context.text_above]
  cases c.text with
  | some object => exact .pure _
  | none => exact .throw trivial

omit [Scalar K] in
theorem framed_updateTextObject (keyword : String) (f : TextObject K → TextObject K) :
    Framed env place below c (updateTextObject (σ := σ) keyword f) (updateTextObject keyword f) :=
  .bind (framed_textObject keyword) fun _ _ => .modify rfl rfl

theorem framed_beginText (call : Call K) :
    Framed env place below c (beginText (σ := σ) call) (beginText call) :=
  .bind (.modify rfl rfl) fun _ _ => .emit _

omit [Scalar K] in
theorem framed_endText (call : Call K) :
    Framed env place below c (endText (σ := σ) call) (endText call) :=
  .bind (framed_textObject _) fun _ _ => .bind (.modify rfl rfl) fun _ _ => .emit _

theorem framed_setFont (call : Call K) :
    Framed env place below c (setFont (σ := σ) call) (setFont call) := by
  refine .read (call.localResult_name 0) fun name _ =>
    .read (call.localResult_number 1) fun size _ =>
    .environment ?_
  have select (c : Context K σ) (x : Action K σ Unit) (hx : x = do
      Action.updateText fun t =>
        { t with
          font := some ((env.resolver.font env.scope name).getD Font.fallback)
          fontName := some name
          fontSize := size }
      if (env.resolver.font env.scope name).isNone then
        throw (OperatorError.missingResource .font name)) : Framed env place below c x x := by
    subst hx
    refine .bind (.updateState _) fun _ _ => ?_
    split
    · exact .throw trivial
    · exact .pure ()
  dsimp only
  split
  · exact .bind (.warnAt _ _ _) fun _ c => select c _ rfl
  · exact select c _ rfl

theorem framed_moveText (call : Call K) :
    Framed env place below c (moveText (σ := σ) call) (moveText call) :=
  .read (call.localResult_number 0) fun _ _ => .read (call.localResult_number 1) fun _ _ =>
    framed_updateTextObject _ _

theorem framed_setTextMatrix (call : Call K) :
    Framed env place below c (setTextMatrix (σ := σ) call) (setTextMatrix call) :=
  .read call.localResult_matrix fun _ _ => framed_updateTextObject _ _

theorem framed_nextLine (call : Call K) :
    Framed env place below c (nextLine (σ := σ) call) (nextLine call) :=
  .state (framed_updateTextObject _ _)

omit [Scalar K] in
/-- Drawing a glyph asks for a nested stream. -/
theorem framed_showGlyph (keyword : String) (glyph : GlyphEvent K σ) :
    Framed env place below c (showGlyph keyword glyph) (showGlyph keyword glyph) := by
  refine .state (.bind (.emit _) fun _ _ => .environment ?_)
  dsimp only
  split
  · split
    · exact .pure ()
    · exact .asks rfl
  · exact .pure ()

theorem framed_showCodes (keyword : String) (font : Font K σ) (codes : List (UInt32 × Bytes)) :
    Framed env place below c (showCodes keyword font codes) (showCodes keyword font codes) := by
  induction codes generalizing c with
  | nil => exact .pure ()
  | cons code rest ih =>
      refine .bind (framed_textObject keyword) fun _ _ => .state ?_
      refine .bind (framed_showGlyph keyword _) fun _ _ => ?_
      exact .bind (framed_updateTextObject keyword _) fun _ _ => ih

theorem framed_showString (keyword : String) (bytes : Bytes) :
    Framed env place below c (showString (K := K) (σ := σ) keyword bytes)
      (showString keyword bytes) := by
  refine .bind (framed_textObject keyword) fun _ _ => .state ?_
  split
  · exact framed_showCodes _ _ _
  · exact .bind (.warnAt _ _ _) fun _ _ => framed_showCodes _ _ _

theorem framed_showText (call : Call K) :
    Framed env place below c (showText (σ := σ) call) (showText call) :=
  .read (call.localResult_string 0) fun _ _ => framed_showString _ _

theorem framed_showElements (call : Call K) (index : Nat) (items : List (Operand K)) :
    Framed env place below c (showElements (σ := σ) call index items)
      (showElements call index items) := by
  have adjust (c : Context K σ) (amount : K) :
      Framed env place below c (showElements.adjust (σ := σ) call amount)
        (showElements.adjust call amount) :=
    .state (framed_updateTextObject _ _)
  induction items generalizing index c with
  | nil => exact .pure ()
  | cons v rest ih =>
      unfold showElements
      cases v with
      | literal bytes => exact .bind (framed_showString _ _) fun _ _ => ih _
      | hexadecimal bytes => exact .bind (framed_showString _ _) fun _ _ => ih _
      | integer i => exact .bind (adjust c _) fun _ _ => ih _
      | real x => exact .bind (adjust c _) fun _ _ => ih _
      | _ => exact .bind (.throw trivial) fun _ _ => ih _

theorem framed_showTextAdjusted (call : Call K) :
    Framed env place below c (showTextAdjusted (σ := σ) call) (showTextAdjusted call) :=
  .read (call.localResult_array 0) fun _ _ => .bind (framed_textObject _) fun _ _ =>
    framed_showElements _ _ _

/-! ### Marked content, forms and images -/

omit [Scalar K] in
theorem framed_beginMarked (call : Call K) :
    Framed env place below c (beginMarked (σ := σ) call) (beginMarked call) :=
  .read (call.localResult_name 0) fun _ _ => .emit _

omit [Scalar K] in
theorem framed_beginMarkedWithProperties (call : Call K) :
    Framed env place below c (beginMarkedWithProperties (σ := σ) call)
      (beginMarkedWithProperties call) := by
  refine .read (call.localResult_name 0) fun tag _ => .environment ?_
  have same : propertyList { env with place } call = propertyList env call := rfl
  rw [same]
  split
  next => exact .emit _
  next e given =>
    exact .bind (.emit _) fun _ _ => .throw (localResult_propertyList env call e given)

omit [Scalar K] in
theorem framed_markPoint (call : Call K) :
    Framed env place below c (markPoint (σ := σ) call) (markPoint call) :=
  .read (call.localResult_name 0) fun _ _ => .emit _

omit [Scalar K] in
theorem framed_markPointWithProperties (call : Call K) :
    Framed env place below c (markPointWithProperties (σ := σ) call)
      (markPointWithProperties call) :=
  .read (call.localResult_name 0) fun _ _ => .environment
    (.read (localResult_propertyList env call) fun _ _ => .emit _)

omit [Scalar K] in
/-- What follows on the check is reached below the limit. -/
theorem alone_checkDepth {α : Type} (room : env.place.depth < env.options.maxDepth)
    (rest : Action K σ α) :
    (Action.checkDepth >>= fun _ => rest).alone env c = rest.alone env c := by
  have open_ : ¬env.options.maxDepth ≤ env.place.depth := Nat.not_le.mpr room
  simp only [Action.checkDepth, bind_assoc]
  change Action.alone env
    ((if env.options.maxDepth ≤ env.place.depth then _ else _) >>= fun _ => rest)
    c = _
  rw [if_neg open_, pure_bind]

theorem alone_showForm (room : env.place.depth < env.options.maxDepth) (name : String)
    (form : Form K σ) : (showForm name form).alone env c = none := by
  rw [showForm, alone_checkDepth room]
  rfl

theorem alone_paintCell (room : env.place.depth < env.options.maxDepth) (name : String)
    (pattern : TilingPattern K σ) (paint : Option (ColorSpace × Color K)) :
    (paintCell name pattern paint).alone env c = none := by
  rw [paintCell, alone_checkDepth room]
  rfl

omit [Scalar K] in
theorem framed_drawImage (name : Option String) (image : Image)
    (inlineImage : Option (InlineImage K)) :
    Framed env place below c (drawImage (σ := σ) name image inlineImage)
      (drawImage name image inlineImage) :=
  .state (.emit _)

theorem portable_invoke (call : Call K) : Portable env c (invoke (σ := σ) call) := by
  intro place below room
  refine .read (call.localResult_name 0) fun name _ => .environment ?_
  refine .read (localResult_require _ _ _) fun object _ => ?_
  cases object with
  | form form => exact .asks (alone_showForm room name form)
  | image image => exact framed_drawImage _ _ _
  | postScript => exact .pure ()

theorem framed_showInlineImage (call : Call K) :
    Framed env place below c (showInlineImage (σ := σ) call) (showInlineImage call) := by
  rw [showInlineImage]
  split
  · exact .throw trivial
  · exact .environment (framed_drawImage _ _ _)

/-! ### Paths -/

theorem framed_devicePoint (call : Call K) (index : Nat) :
    Framed env place below c (devicePoint (σ := σ) call index) (devicePoint call index) :=
  .read (call.localResult_number index) fun _ _ => .read (call.localResult_number (index + 1))
    fun _ _ => .state (.pure _)

omit [Scalar K] in
theorem framed_construct (f : PathBuilder K → PathBuilder K) (e : Event K σ) :
    Framed env place below c (construct f e) (construct f e) :=
  .bind (.modify rfl rfl) fun _ _ => .emit e

omit [Scalar K] in
theorem framed_fromCurrentPoint (keyword : String) (stop : Point K) (f : Point K → Action K σ Unit)
    (continues : ∀ p c, Framed env place below c (f p) (f p)) :
    Framed env place below c (fromCurrentPoint keyword stop f)
      (fromCurrentPoint keyword stop f) := by
  refine .context ?_
  rw [Context.path_above]
  cases c.path.current with
  | some p => exact continues p c
  | none => exact .bind (.warnAt _ _ _) fun _ _ => framed_construct _ _

theorem framed_moveTo (call : Call K) :
    Framed env place below c (moveTo (σ := σ) call) (moveTo call) :=
  .bind (framed_devicePoint call 0) fun _ _ => framed_construct _ _

theorem framed_lineTo (call : Call K) :
    Framed env place below c (lineTo (σ := σ) call) (lineTo call) :=
  .bind (framed_devicePoint call 0) fun _ _ =>
    framed_fromCurrentPoint _ _ _ fun _ _ => framed_construct _ _

theorem framed_curveTo (call : Call K) :
    Framed env place below c (curveTo (σ := σ) call) (curveTo call) :=
  .bind (framed_devicePoint call 0) fun _ _ => .bind (framed_devicePoint call 2) fun _ _ =>
    .bind (framed_devicePoint call 4) fun _ _ =>
      framed_fromCurrentPoint _ _ _ fun _ _ => framed_construct _ _

theorem framed_curveFromCurrent (call : Call K) :
    Framed env place below c (curveFromCurrent (σ := σ) call) (curveFromCurrent call) :=
  .bind (framed_devicePoint call 0) fun _ _ => .bind (framed_devicePoint call 2) fun _ _ =>
    framed_fromCurrentPoint _ _ _ fun _ _ => framed_construct _ _

theorem framed_curveIntoEnd (call : Call K) :
    Framed env place below c (curveIntoEnd (σ := σ) call) (curveIntoEnd call) :=
  .bind (framed_devicePoint call 0) fun _ _ => .bind (framed_devicePoint call 2) fun _ _ =>
    framed_fromCurrentPoint _ _ _ fun _ _ => framed_construct _ _

omit [Scalar K] in
theorem framed_closePath (call : Call K) :
    Framed env place below c (closePath (σ := σ) call) (closePath call) := by
  refine .context ?_
  rw [Context.path_above]
  split
  · exact framed_construct _ _
  · exact .pure ()

theorem framed_appendRectangle (call : Call K) :
    Framed env place below c (appendRectangle (σ := σ) call) (appendRectangle call) :=
  .read (call.localResult_number 0) fun _ _ => .read (call.localResult_number 1) fun _ _ =>
    .read (call.localResult_number 2) fun _ _ => .read (call.localResult_number 3) fun _ _ =>
      .state (framed_construct _ _)

/-- A cell that is expanded asks for a nested stream. -/
theorem framed_expandPattern (room : place.depth < env.options.maxDepth) (area : Path K)
    (rule : FillRule) :
    Framed env place below c (expandPattern (σ := σ) area rule) (expandPattern area rule) := by
  refine .environment (.state ?_)
  have same : selectedCell? { env with place } c.state = selectedCell? env c.state := rfl
  rw [same]
  cases selectedCell? env c.state with
  | none => exact .pure ()
  | some cell => exact .asks (Action.alone_andFinally_of_none (alone_paintCell room _ _ _) _)

theorem framed_expandFill (room : place.depth < env.options.maxDepth) (painting : Painting)
    (path : Path K) :
    Framed env place below c (expandFill (σ := σ) painting path) (expandFill painting path) := by
  rw [expandFill]
  split
  · exact framed_expandPattern room _ _
  · exact .pure ()

theorem framed_finishPath (room : place.depth < env.options.maxDepth) (painting : Painting)
    (call : Call K) :
    Framed env place below c (finishPath (σ := σ) painting call) (finishPath painting call) := by
  refine .bind (.context (.bind (.modify rfl rfl) fun _ _ => .pure _)) fun (path, clip) c => ?_
  dsimp only
  split
  · exact .pure ()
  refine .state (.bind (.emit _) fun _ c => ?_)
  cases clip with
  | none => exact framed_expandFill room painting path
  | some rule =>
      refine .bind ?_ fun _ _ => framed_expandFill room painting path
      exact .bind (.emit _) fun _ _ => .updateState _

omit [Scalar K] in
theorem framed_paintShading (call : Call K) :
    Framed env place below c (paintShading (σ := σ) call) (paintShading call) :=
  .read (call.localResult_name 0) fun _ _ => .environment
    (.read (localResult_require _ _ _) fun _ _ => .state (.emit _))

/-! ### Colours -/

theorem framed_selectSpace (target : PaintTarget) (call : Call K) :
    Framed env place below c (selectSpace (σ := σ) target call) (selectSpace target call) :=
  .read (call.localResult_name 0) fun _ _ => .environment
    (.read (localResult_require _ _ _) fun _ _ => .updateState _)

theorem framed_selectColor (target : PaintTarget) (patterns : Bool) (call : Call K) :
    Framed env place below c (selectColor (σ := σ) target patterns call)
      (selectColor target patterns call) :=
  .state (.read (localResult_selectedColor _ _ _) fun _ _ => .updateState _)

/-! ### The table -/

omit [Scalar K] in
theorem portable_action {keyword : String} {minOperands : Nat} {run : Call K → Action K σ Unit}
    (framed : ∀ env place below c call, Framed env place below c (run call) (run call)) :
    (entry keyword minOperands run).Follows Portable :=
  fun env c call place below _ => framed env place below c call

theorem portable_setter {keyword : String} {minOperands : Nat}
    {change : Call K → Except OperatorError (GraphicsState K σ → GraphicsState K σ)}
    (setting : ∀ env call, Setting env (change call)) :
    (setter keyword minOperands change).Follows Portable :=
  fun env _ call _ _ _ => framed_setter (setting env call).isLocal

omit [Scalar K] in
/-- An operator that sets a parameter to what it reads. -/
theorem portable_parameter {α : Type} {keyword : String} {minOperands : Nat}
    {read : Call K → Except OperatorError α} {set : α → GraphicsState K σ → GraphicsState K σ}
    (isLocal : ∀ call, LocalResult (read call)) :
    (setter keyword minOperands fun call => do
      let a ← read call
      return set a).Follows Portable :=
  portable_action fun _ _ _ _ call => framed_setter ((isLocal call).bind fun _ => .ok _)

theorem portable_textSetter (keyword : String) (set : K → TextState K σ → TextState K σ) :
    (textSetter keyword set).Follows Portable :=
  portable_action fun _ _ _ _ call =>
    framed_setter ((call.localResult_number 0).bind fun _ => .ok _)

omit [Scalar K] in
theorem portable_ignored (keyword : String) (minOperands : Nat) :
    (ignored (K := K) (σ := σ) keyword minOperands).Follows Portable :=
  portable_action fun _ _ _ _ _ => .pure ()

/-- The operators that change what is saved. -/
def stackKeywords : List String := ["q", "Q"]

theorem portable_stateEntries : ∀ e ∈ stateEntries (K := K) (σ := σ),
    e.keyword ∉ stackKeywords → e.Follows Portable := by
  have number (call : Call K) := call.localResult_number 0
  simp only [stateEntries, List.forall_mem_cons, List.not_mem_nil, false_implies, implies_true,
    and_true]
  exact ⟨fun stack => absurd (List.mem_cons_self ..) stack,
    fun stack => absurd (List.mem_cons_of_mem _ (List.mem_singleton_self _)) stack,
    fun _ => portable_parameter Call.localResult_matrix,
    fun _ => portable_action fun _ _ _ _ => framed_setParameters,
    fun _ => portable_parameter number, fun _ => portable_setter fun _ => setting_setLineCap,
    fun _ => portable_setter fun _ => setting_setLineJoin, fun _ => portable_parameter number,
    fun _ => portable_setter fun _ => setting_setDash,
    fun _ => portable_parameter fun call => call.localResult_name 0,
    fun _ => portable_parameter number⟩

theorem portable_textStateEntries :
    ∀ e ∈ textStateEntries (K := K) (σ := σ), e.Follows Portable := by
  simp only [textStateEntries, List.forall_mem_cons, List.not_mem_nil, false_implies, implies_true,
    and_true, portable_textSetter, true_and]
  refine ⟨portable_action fun _ _ _ _ => framed_beginText,
    portable_action fun _ _ _ _ => framed_endText, portable_action fun _ _ _ _ => framed_setFont,
    portable_setter fun _ => setting_setRenderMode, portable_action fun _ _ _ _ => framed_moveText,
    fun call => ?_, portable_action fun _ _ _ _ => framed_setTextMatrix,
    portable_action fun _ _ _ _ => framed_nextLine⟩
  exact (call.localResult_number 1).bind fun _ => .ok _

theorem portable_textShowingEntries :
    ∀ e ∈ textShowingEntries (K := K) (σ := σ), e.Follows Portable := by
  simp only [textShowingEntries, List.forall_mem_cons, List.not_mem_nil, false_implies,
    implies_true, and_true, portable_ignored]
  exact ⟨portable_action fun _ _ _ _ => framed_showText,
    portable_action fun _ _ _ _ => framed_showTextAdjusted, fun _ => .ok _, fun _ => .ok _⟩

omit [Scalar K] in
theorem portable_markedEntries : ∀ e ∈ markedEntries (K := K) (σ := σ), e.Follows Portable := by
  simp only [markedEntries, List.forall_mem_cons, List.not_mem_nil, false_implies, implies_true,
    and_true]
  exact ⟨portable_action fun _ _ _ _ => framed_beginMarked,
    portable_action fun _ _ _ _ => framed_beginMarkedWithProperties,
    portable_action fun _ _ _ _ _ => .emit _, portable_action fun _ _ _ _ => framed_markPoint,
    portable_action fun _ _ _ _ => framed_markPointWithProperties,
    portable_action fun _ _ _ _ _ => .modify rfl rfl,
    portable_action fun _ _ _ _ _ => .modify rfl rfl⟩

theorem portable_sharedEntries : ∀ e ∈ sharedEntries (K := K) (σ := σ),
    e.keyword ∉ stackKeywords → e.Follows Portable := by
  simp only [sharedEntries, List.forall_mem_append]
  refine ⟨⟨⟨⟨portable_stateEntries, ?_⟩, ?_⟩, ?_⟩, ?_⟩
  · exact fun e mem _ => portable_textStateEntries e mem
  · exact fun e mem _ => portable_textShowingEntries e mem
  · exact fun e mem _ => portable_markedEntries e mem
  · intro e mem _
    rw [formEntries, List.mem_singleton] at mem
    subst mem
    exact fun env c call => portable_invoke call

theorem portable_pathConstructionEntries :
    ∀ e ∈ pathConstructionEntries (K := K) (σ := σ), e.Follows Portable := by
  simp only [pathConstructionEntries, List.forall_mem_cons, List.not_mem_nil, false_implies,
    implies_true, and_true]
  exact ⟨portable_action fun _ _ _ _ => framed_moveTo, portable_action fun _ _ _ _ => framed_lineTo,
    portable_action fun _ _ _ _ => framed_curveTo,
    portable_action fun _ _ _ _ => framed_curveFromCurrent,
    portable_action fun _ _ _ _ => framed_curveIntoEnd,
    portable_action fun _ _ _ _ => framed_closePath,
    portable_action fun _ _ _ _ => framed_appendRectangle⟩

theorem portable_pathPaintingEntries :
    ∀ e ∈ pathPaintingEntries (K := K) (σ := σ), e.Follows Portable := by
  have finishing (keyword : String) (painting : Painting) :
      (entry (K := K) (σ := σ) keyword 0 (finishPath painting)).Follows Portable :=
    fun env c call place below room => framed_finishPath room painting call
  have closing (keyword next : String) :
      (closeThen (K := K) (σ := σ) keyword next).Follows Portable :=
    fun _ => .ok _
  simp only [pathPaintingEntries, List.forall_mem_cons, List.not_mem_nil, false_implies,
    implies_true, and_true, finishing, closing, true_and]
  exact ⟨portable_action fun _ _ _ _ _ => .modify rfl rfl,
    portable_action fun _ _ _ _ _ => .modify rfl rfl,
    portable_action fun _ _ _ _ => framed_paintShading⟩

theorem portable_deviceSetter (keyword : String) (target : PaintTarget) (space : ColorSpace) :
    (deviceSetter (K := K) (σ := σ) keyword target space).Follows Portable :=
  portable_parameter fun call => localResult_colorComponents call.keyword 0 _

theorem portable_colorEntries : ∀ e ∈ colorEntries (K := K) (σ := σ), e.Follows Portable := by
  simp only [colorEntries, List.forall_mem_cons, List.not_mem_nil, false_implies, implies_true,
    and_true, portable_deviceSetter]
  exact ⟨portable_action fun _ _ _ _ => framed_selectSpace .stroke,
    portable_action fun _ _ _ _ => framed_selectSpace .fill,
    portable_action fun _ _ _ _ => framed_selectColor .stroke false,
    portable_action fun _ _ _ _ => framed_selectColor .stroke true,
    portable_action fun _ _ _ _ => framed_selectColor .fill false,
    portable_action fun _ _ _ _ => framed_selectColor .fill true⟩

theorem portable_paintingEntries :
    ∀ e ∈ paintingEntries (K := K) (σ := σ), e.Follows Portable := by
  simp only [paintingEntries, List.forall_mem_append]
  refine ⟨⟨⟨?_, portable_pathConstructionEntries⟩, portable_pathPaintingEntries⟩,
    portable_colorEntries⟩
  simpa only [inlineImageEntries, List.forall_mem_singleton] using
    portable_action fun _ _ _ _ => framed_showInlineImage

/-- The operators that others stand for are listed. -/
theorem link_of_mem_expand (call step : Call K)
    (among : step ∈ ((graphicsTable (K := K) (σ := σ)).expand call).2) :
    (call.operator.keyword, step.operator.keyword) ∈ textLinks ++ paintLinks := by
  unfold graphicsTable at among
  refine OperatorTable.standsFor_ofList (P := fun keyword next =>
    (keyword, next) ∈ textLinks ++ paintLinks) ?_ call step among
  refine List.forall_mem_append.mpr ⟨fun e mem => ?_, fun e mem => ?_⟩
  · exact (standsFor_sharedEntries e mem).mono fun _ => List.mem_append_left _
  · exact (standsFor_paintingEntries e mem).mono fun _ => List.mem_append_right _

/-- Operators that others stand for do not change what is saved. -/
theorem not_stack_of_mem_expand (call step : Call K)
    (among : step ∈ ((graphicsTable (K := K) (σ := σ)).expand call).2) :
    step.operator.keyword ∉ stackKeywords := by
  have all : ∀ link ∈ textLinks ++ paintLinks, link.2 ∉ stackKeywords := by decide
  exact all _ (link_of_mem_expand call step among)

/-- Carrying out an operator that does not change what is saved. -/
theorem portable_dispatch (call : Call K) (apart : call.operator.keyword ∉ stackKeywords)
    (c : Context K σ) : Portable env c (graphicsTable.dispatch call) := by
  refine OperatorTable.dispatchWithin_induction ranked_graphicsTable (fun _ _ _ _ => .pure ())
    (fun first later place below room =>
      .bind (first place below room) fun _ c => later c place below room)
    (fun call => call.operator.keyword ∉ stackKeywords) (fun call apart => ⟨fun c => ?_, ?_⟩) _
    call (rank_lt_links call) apart c
  · refine OperatorTable.follows_expand (fun _ _ _ isLocal _ _ _ => .throw isLocal)
      (fun _ _ _ _ _ => .pure ()) (fun e found => ?_) env c
    rw [find?_graphicsTable, Option.or_eq_some_iff] at found
    rcases found with painting | ⟨_, shared⟩
    · exact portable_paintingEntries e (OperatorTable.mem_of_find?_ofList painting).1
    · obtain ⟨mem, keyword⟩ := OperatorTable.mem_of_find?_ofList shared
      exact portable_sharedEntries e mem (keyword ▸ apart)
  · exact fun step => not_stack_of_mem_expand call step

end PdfContent.Operators
