import PdfContent.Proofs.Drawing
import PdfContent.Proofs.FramedOperators

/-!
# What carrying out a painting operator comes to

The operators of the graphics table are of three kinds: `q` and `Q`, the operators that paint the
path under construction, and the ones that only follow the path. `Carried` says of a call which of
these it is and what it does, so that a fact about all operators is proved for each of the three.
-/

namespace PdfContent.Operators

variable {K σ α : Type} {sure : Prop} {env : Environment K σ} {less : Options} {c : Context K σ}

/-! ### The graphics state and text -/

theorem draws_setParameters (call : Call K) :
    Draws sure env less c (setParameters (σ := σ) call) (setParameters call) := by
  refine .read (call.localResult_name 0) fun name _ => .environment ?_
  exact .read (localResult_require _ _ _) fun _ _ => .updateState _

theorem draws_textObject (keyword : String) :
    Draws sure env less c (textObject keyword : Action K σ (TextObject K))
      (textObject keyword) := by
  refine .context ?_
  split
  · exact .pure _
  · exact .throw trivial

theorem draws_updateTextObject (keyword : String) (f : TextObject K → TextObject K) :
    Draws sure env less c (updateTextObject (σ := σ) keyword f) (updateTextObject keyword f) :=
  .bind (draws_textObject keyword) fun _ _ => .modify ⟨rfl, rfl⟩

theorem draws_endText (call : Call K) :
    Draws sure env less c (endText (σ := σ) call) (endText call) := by
  refine .bind (draws_textObject _) fun _ _ => .bind (.modify ⟨rfl, rfl⟩) fun _ _ => ?_
  exact .emit ⟨rfl, rfl, rfl⟩

/-! ### Marked content -/

theorem draws_beginMarked (call : Call K) :
    Draws sure env less c (beginMarked (σ := σ) call) (beginMarked call) :=
  .read (call.localResult_name 0) fun _ _ => .emit ⟨rfl, rfl, rfl⟩

theorem draws_beginMarkedWithProperties (call : Call K) :
    Draws sure env less c (beginMarkedWithProperties (σ := σ) call)
      (beginMarkedWithProperties call) := by
  refine .read (call.localResult_name 0) fun tag _ => .environment ?_
  have same : propertyList { env with options := less } call = propertyList env call := rfl
  rw [same]
  cases given : propertyList env call with
  | ok properties => exact .emit ⟨rfl, rfl, rfl⟩
  | error e =>
      refine .bind (.emit ⟨rfl, rfl, rfl⟩) fun _ _ => .throw ?_
      exact localResult_propertyList env call e given

theorem draws_markPoint (call : Call K) :
    Draws sure env less c (markPoint (σ := σ) call) (markPoint call) :=
  .read (call.localResult_name 0) fun _ _ => .emit ⟨rfl, rfl, rfl⟩

theorem draws_markPointWithProperties (call : Call K) :
    Draws sure env less c (markPointWithProperties (σ := σ) call)
      (markPointWithProperties call) := by
  refine .read (call.localResult_name 0) fun tag _ => .environment ?_
  exact .read (localResult_propertyList env call) fun _ _ => .emit ⟨rfl, rfl, rfl⟩

theorem draws_drawImage (name : Option String) (image : Image)
    (inlineImage : Option (InlineImage K)) :
    Draws sure env less c (drawImage (σ := σ) name image inlineImage)
      (drawImage name image inlineImage) :=
  .state (.emit ⟨rfl, rfl, rfl⟩)

/-! ### Paths -/

theorem draws_closePath (call : Call K) :
    Draws sure env less c (closePath (σ := σ) call) (closePath call) := by
  refine .context ?_
  split
  next current => exact .construct rfl (.inr current)
  · exact .pure ()

theorem draws_paintShading (call : Call K) :
    Draws sure env less c (paintShading (σ := σ) call) (paintShading call) := by
  refine .read (call.localResult_name 0) fun name _ => .environment ?_
  exact .read (localResult_require _ _ _) fun _ _ => .state (.emit ⟨rfl, rfl, rfl⟩)

variable [Scalar K]

theorem draws_beginText (call : Call K) :
    Draws sure env less c (beginText (σ := σ) call) (beginText call) :=
  .bind (.modify ⟨rfl, rfl⟩) fun _ _ => .emit ⟨rfl, rfl, rfl⟩

theorem draws_moveText (call : Call K) :
    Draws sure env less c (moveText (σ := σ) call) (moveText call) :=
  .read (call.localResult_number 0) fun _ _ => .read (call.localResult_number 1) fun _ _ =>
    draws_updateTextObject _ _

theorem draws_setTextMatrix (call : Call K) :
    Draws sure env less c (setTextMatrix (σ := σ) call) (setTextMatrix call) :=
  .read call.localResult_matrix fun _ _ => draws_updateTextObject _ _

theorem draws_nextLine (call : Call K) :
    Draws sure env less c (nextLine (σ := σ) call) (nextLine call) :=
  .state (draws_updateTextObject _ _)

theorem draws_devicePoint (call : Call K) (index : Nat) :
    Draws sure env less c (devicePoint (σ := σ) call index) (devicePoint call index) :=
  .read (call.localResult_number index) fun _ _ =>
    .read (call.localResult_number (index + 1)) fun _ _ => .state (.pure _)

theorem draws_moveTo (call : Call K) : Draws sure env less c (moveTo (σ := σ) call) (moveTo call) :=
  .bind (draws_devicePoint call 0) fun _ _ => .construct rfl (.inl rfl)

theorem draws_appendRectangle (call : Call K) :
    Draws sure env less c (appendRectangle (σ := σ) call) (appendRectangle call) :=
  .read (call.localResult_number 0) fun _ _ => .read (call.localResult_number 1) fun _ _ =>
    .read (call.localResult_number 2) fun _ _ => .read (call.localResult_number 3) fun _ _ =>
      .state (.construct rfl (.inl rfl))

theorem draws_selectSpace (target : PaintTarget) (call : Call K) :
    Draws sure env less c (selectSpace (σ := σ) target call) (selectSpace target call) := by
  refine .read (call.localResult_name 0) fun name _ => .environment ?_
  exact .read (localResult_require _ _ _) fun _ _ => .updateState _

theorem draws_selectColor (target : PaintTarget) (patterns : Bool) (call : Call K) :
    Draws sure env less c (selectColor (σ := σ) target patterns call)
      (selectColor target patterns call) :=
  .state (.read (localResult_selectedColor _ _ _) fun _ _ => .updateState _)

theorem draws_showInlineImage (call : Call K) :
    Draws sure env less c (showInlineImage (σ := σ) call) (showInlineImage call) := by
  rw [showInlineImage]
  split
  · exact .throw trivial
  · exact .environment (draws_drawImage _ _ _)

/-! ### Operators that look at the options -/

section AtMost

variable (atMost : less.AtMost env.options)

include atMost

theorem draws_setFont (call : Call K) :
    Draws sure env less c (setFont (σ := σ) call) (setFont call) := by
  refine .read (call.localResult_name 0) fun name _ =>
    .read (call.localResult_number 1) fun size _ =>
    .environment ?_
  have select (c : Context K σ) : Draws sure env less c
      (do
        Action.updateText fun t =>
          { t with
            font := some ((env.resolver.font env.scope name).getD Font.fallback)
            fontName := some name
            fontSize := size }
        if (env.resolver.font env.scope name).isNone then
          throw (OperatorError.missingResource .font name))
      (do
        Action.updateText fun t =>
          { t with
            font := some ((env.resolver.font env.scope name).getD Font.fallback)
            fontName := some name
            fontSize := size }
        if (env.resolver.font env.scope name).isNone then
          throw (OperatorError.missingResource .font name)) := by
    refine .bind (.updateState _) fun _ _ => ?_
    split
    · exact .throw trivial
    · exact .pure ()
  dsimp only
  split
  · exact .bind (.warnAt atMost _ _ _) fun _ => select
  · exact select c

omit [Scalar K] in
/-- The glyphs of a Type 3 font are drawn if the options say so. -/
theorem draws_showGlyph (keyword : String) (glyph : GlyphEvent K σ) :
    Draws sure env less c (showGlyph keyword glyph) (showGlyph keyword glyph) := by
  refine .state (.bind (.emit ⟨rfl, rfl, rfl⟩) fun _ c => .environment ?_)
  simp only [Bool.and_eq_true, decide_eq_true_eq]
  by_cases type3 : env.receiver = .device ∧ glyph.font.kind = .type3
  case neg =>
    rw [if_neg fun drawn => type3 drawn.1, if_neg fun drawn => type3 drawn.1]
    exact .pure ()
  cases found : glyph.font.procedure? glyph.code with
  | none =>
      simp only [ite_self]
      exact .pure ()
  | some procedure =>
      by_cases shown : less.runGlyphProcedures = true
      · rw [if_pos ⟨type3, atMost.runGlyphProcedures shown⟩, if_pos ⟨type3, shown⟩]
        refine .handle atMost keyword (fun _ => rfl) fun e noFault => ?_
        cases e with
        | fatal cause => cases noFault
        | _ => rfl
      rw [if_neg (c := _ ∧ less.runGlyphProcedures = true) fun drawn => shown drawn.2]
      split
      next drawn =>
        have out : less.runGlyphProcedures = false := Bool.eq_false_iff.mpr shown
        refine .handleAside out drawn.2 keyword (fun _ => rfl) fun e noFault => ?_
        cases e with
        | fatal cause => cases noFault
        | _ => rfl
      · exact .pure ()

theorem draws_showCodes (keyword : String) (font : Font K σ) (codes : List (UInt32 × Bytes)) :
    Draws sure env less c (showCodes keyword font codes) (showCodes keyword font codes) := by
  induction codes generalizing c with
  | nil => exact .pure ()
  | cons code rest ih =>
      refine .bind (draws_textObject keyword) fun _ _ => .state ?_
      refine .bind (draws_showGlyph atMost keyword _) fun _ _ => ?_
      exact .bind (draws_updateTextObject keyword _) fun _ _ => ih

theorem draws_showString (keyword : String) (bytes : Bytes) :
    Draws sure env less c (showString (K := K) (σ := σ) keyword bytes)
      (showString keyword bytes) := by
  refine .bind (draws_textObject keyword) fun _ _ => .state ?_
  split
  · exact draws_showCodes atMost _ _ _
  · exact .bind (.warnAt atMost _ _ _) fun _ _ => draws_showCodes atMost _ _ _

theorem draws_showText (call : Call K) :
    Draws sure env less c (showText (σ := σ) call) (showText call) :=
  .read (call.localResult_string 0) fun _ _ => draws_showString atMost _ _

theorem draws_showElements (call : Call K) (index : Nat) (items : List (Operand K)) :
    Draws sure env less c (showElements (σ := σ) call index items)
      (showElements call index items) := by
  have adjust (c : Context K σ) (amount : K) : Draws sure env less c
      (showElements.adjust (σ := σ) call amount) (showElements.adjust call amount) :=
    .state (draws_updateTextObject _ _)
  induction items generalizing index c with
  | nil => exact .pure ()
  | cons v rest ih =>
      unfold showElements
      cases v with
      | literal bytes => exact .bind (draws_showString atMost _ _) fun _ _ => ih _
      | hexadecimal bytes => exact .bind (draws_showString atMost _ _) fun _ _ => ih _
      | integer i => exact .bind (adjust c _) fun _ _ => ih _
      | real x => exact .bind (adjust c _) fun _ _ => ih _
      | _ => exact .bind (.throw trivial) fun _ _ => ih _

theorem draws_showTextAdjusted (call : Call K) :
    Draws sure env less c (showTextAdjusted (σ := σ) call) (showTextAdjusted call) :=
  .read (call.localResult_array 0) fun _ _ => .bind (draws_textObject _) fun _ _ =>
    draws_showElements atMost _ _ _

theorem draws_showForm (name : String) (form : Form K σ) :
    Draws sure env less c (showForm name form) (showForm name form) := by
  refine .bind (.checkDepth atMost) fun _ _ => .environment (.state ?_)
  exact .between ⟨rfl, rfl, rfl⟩ ⟨rfl, rfl, rfl⟩

theorem draws_invoke (call : Call K) :
    Draws sure env less c (invoke (σ := σ) call) (invoke call) := by
  refine .read (call.localResult_name 0) fun name _ => .environment ?_
  refine .read (localResult_require _ _ _) fun object _ => ?_
  cases object with
  | form form => exact draws_showForm atMost name form
  | image image => exact draws_drawImage _ _ _
  | postScript => exact .pure ()

omit [Scalar K] in
/-- Where a current point is wanted, the path goes on from it or starts anew. -/
theorem draws_fromCurrentPoint (keyword : String) (stop : Point K) {f : Point K → Action K σ Unit}
    (continues : ∀ p c, c.path.current.isSome = true → Draws sure env less c (f p) (f p)) :
    Draws sure env less c (fromCurrentPoint keyword stop f) (fromCurrentPoint keyword stop f) := by
  refine .context ?_
  split
  next p current => exact continues p c (by rw [current]; rfl)
  · exact .bind (.warnAt atMost _ _ _) fun _ _ => .construct rfl (.inl rfl)

theorem draws_lineTo (call : Call K) : Draws sure env less c (lineTo (σ := σ) call) (lineTo call) :=
  .bind (draws_devicePoint call 0) fun _ _ =>
    draws_fromCurrentPoint atMost _ _ fun _ _ current => .construct rfl (.inr current)

theorem draws_curveTo (call : Call K) :
    Draws sure env less c (curveTo (σ := σ) call) (curveTo call) :=
  .bind (draws_devicePoint call 0) fun _ _ => .bind (draws_devicePoint call 2) fun _ _ =>
    .bind (draws_devicePoint call 4) fun _ _ =>
      draws_fromCurrentPoint atMost _ _ fun _ _ current => .construct rfl (.inr current)

theorem draws_curveFromCurrent (call : Call K) :
    Draws sure env less c (curveFromCurrent (σ := σ) call) (curveFromCurrent call) :=
  .bind (draws_devicePoint call 0) fun _ _ => .bind (draws_devicePoint call 2) fun _ _ =>
    draws_fromCurrentPoint atMost _ _ fun _ _ current => .construct rfl (.inr current)

theorem draws_curveIntoEnd (call : Call K) :
    Draws sure env less c (curveIntoEnd (σ := σ) call) (curveIntoEnd call) :=
  .bind (draws_devicePoint call 0) fun _ _ => .bind (draws_devicePoint call 2) fun _ _ =>
    draws_fromCurrentPoint atMost _ _ fun _ _ current => .construct rfl (.inr current)

end AtMost

/-! ### The tables -/

/-- Under options by which no more is expanded an action does the same, but for glyph procedures. -/
def FollowsPath (env : Environment K σ) (c : Context K σ) (x : Action K σ Unit) : Prop :=
  ∀ (sure : Prop) (less : Options), less.AtMost env.options → Draws sure env less c x x

omit [Scalar K] in
theorem followsPath_action {keyword : String} {minOperands : Nat} {run : Call K → Action K σ Unit}
    (follows : ∀ env c call, FollowsPath env c (run call)) :
    (entry keyword minOperands run).Follows FollowsPath :=
  follows

omit [Scalar K] in
/-- An operator that does the same under all options. -/
theorem followsPath_plain {keyword : String} {minOperands : Nat} {run : Call K → Action K σ Unit}
    (draws : ∀ sure env less c call, Draws sure env less c (run call) (run call)) :
    (entry keyword minOperands run).Follows FollowsPath :=
  fun env c call sure less _ => draws sure env less c call

theorem followsPath_setter {keyword : String} {minOperands : Nat}
    {change : Call K → Except OperatorError (GraphicsState K σ → GraphicsState K σ)}
    (setting : ∀ env call, Setting env (change call)) :
    (setter keyword minOperands change).Follows FollowsPath :=
  fun env _ call _ _ _ => .read (setting env call).isLocal fun _ _ => .updateState _

omit [Scalar K] in
/-- An operator that sets a parameter to what it reads. -/
theorem followsPath_parameter {keyword : String} {minOperands : Nat}
    {read : Call K → Except OperatorError α} {set : α → GraphicsState K σ → GraphicsState K σ}
    (isLocal : ∀ call, LocalResult (read call)) :
    (setter keyword minOperands fun call => do return set (← read call)).Follows FollowsPath :=
  fun _ _ call _ _ _ => .read ((isLocal call).bind fun _ => .ok _) fun _ _ => .updateState _

theorem followsPath_textSetter (keyword : String) (set : K → TextState K σ → TextState K σ) :
    (textSetter keyword set).Follows FollowsPath :=
  followsPath_parameter fun call => call.localResult_number 0

theorem followsPath_deviceSetter (keyword : String) (target : PaintTarget) (space : ColorSpace) :
    (deviceSetter (K := K) (σ := σ) keyword target space).Follows FollowsPath :=
  followsPath_parameter fun call => localResult_colorComponents call.keyword 0 _

omit [Scalar K] in
theorem followsPath_ignored (keyword : String) (minOperands : Nat) :
    (ignored (K := K) (σ := σ) keyword minOperands).Follows FollowsPath :=
  followsPath_plain fun _ _ _ _ _ => .pure ()

theorem followsPath_stateEntries : ∀ e ∈ stateEntries (K := K) (σ := σ),
    e.keyword ∉ stackKeywords → e.Follows FollowsPath := by
  have number (call : Call K) := call.localResult_number 0
  simp only [stateEntries, List.forall_mem_cons, List.not_mem_nil, false_implies, implies_true,
    and_true]
  refine ⟨fun stack => ?_, fun stack => ?_, ?_⟩
  · exact absurd (List.mem_cons_self ..) stack
  · exact absurd (List.mem_cons_of_mem _ (List.mem_singleton_self _)) stack
  exact ⟨fun _ => followsPath_parameter Call.localResult_matrix,
    fun _ => followsPath_plain fun _ _ _ _ => draws_setParameters,
    fun _ => followsPath_parameter number, fun _ => followsPath_setter fun _ => setting_setLineCap,
    fun _ => followsPath_setter fun _ => setting_setLineJoin,
    fun _ => followsPath_parameter number, fun _ => followsPath_setter fun _ => setting_setDash,
    fun _ => followsPath_parameter fun call => call.localResult_name 0,
    fun _ => followsPath_parameter number⟩

theorem followsPath_textStateEntries :
    ∀ e ∈ textStateEntries (K := K) (σ := σ), e.Follows FollowsPath := by
  simp only [textStateEntries, List.forall_mem_cons, List.not_mem_nil, false_implies, implies_true,
    and_true, followsPath_textSetter, true_and]
  refine ⟨followsPath_plain fun _ _ _ _ => draws_beginText,
    followsPath_plain fun _ _ _ _ => draws_endText,
    followsPath_action fun _ _ call _ _ atMost => draws_setFont atMost call,
    followsPath_setter fun _ => setting_setRenderMode,
    followsPath_plain fun _ _ _ _ => draws_moveText, fun call => ?_,
    followsPath_plain fun _ _ _ _ => draws_setTextMatrix,
    followsPath_plain fun _ _ _ _ => draws_nextLine⟩
  exact (call.localResult_number 1).bind fun _ => .ok _

theorem followsPath_textShowingEntries :
    ∀ e ∈ textShowingEntries (K := K) (σ := σ), e.Follows FollowsPath := by
  simp only [textShowingEntries, List.forall_mem_cons, List.not_mem_nil, false_implies,
    implies_true, and_true, followsPath_ignored]
  exact ⟨followsPath_action fun _ _ call _ _ atMost => draws_showText atMost call,
    followsPath_action fun _ _ call _ _ atMost => draws_showTextAdjusted atMost call,
    fun _ => .ok _, fun _ => .ok _⟩

omit [Scalar K] in
theorem followsPath_markedEntries :
    ∀ e ∈ markedEntries (K := K) (σ := σ), e.Follows FollowsPath := by
  simp only [markedEntries, List.forall_mem_cons, List.not_mem_nil, false_implies, implies_true,
    and_true]
  exact ⟨followsPath_plain fun _ _ _ _ => draws_beginMarked,
    followsPath_plain fun _ _ _ _ => draws_beginMarkedWithProperties,
    followsPath_plain fun _ _ _ _ _ => .emit ⟨rfl, rfl, rfl⟩,
    followsPath_plain fun _ _ _ _ => draws_markPoint,
    followsPath_plain fun _ _ _ _ => draws_markPointWithProperties,
    followsPath_plain fun _ _ _ _ _ => .modify ⟨rfl, rfl⟩,
    followsPath_plain fun _ _ _ _ _ => .modify ⟨rfl, rfl⟩⟩

theorem followsPath_sharedEntries : ∀ e ∈ sharedEntries (K := K) (σ := σ),
    e.keyword ∉ stackKeywords → e.Follows FollowsPath := by
  simp only [sharedEntries, List.forall_mem_append]
  refine ⟨⟨⟨⟨followsPath_stateEntries, ?_⟩, ?_⟩, ?_⟩, ?_⟩
  · exact fun e mem _ => followsPath_textStateEntries e mem
  · exact fun e mem _ => followsPath_textShowingEntries e mem
  · exact fun e mem _ => followsPath_markedEntries e mem
  · intro e mem _
    rw [formEntries, List.mem_singleton] at mem
    subst mem
    exact fun _ _ call _ _ atMost => draws_invoke atMost call

theorem followsPath_pathConstructionEntries :
    ∀ e ∈ pathConstructionEntries (K := K) (σ := σ), e.Follows FollowsPath := by
  simp only [pathConstructionEntries, List.forall_mem_cons, List.not_mem_nil, false_implies,
    implies_true, and_true]
  exact ⟨followsPath_plain fun _ _ _ _ => draws_moveTo,
    followsPath_action fun _ _ call _ _ atMost => draws_lineTo atMost call,
    followsPath_action fun _ _ call _ _ atMost => draws_curveTo atMost call,
    followsPath_action fun _ _ call _ _ atMost => draws_curveFromCurrent atMost call,
    followsPath_action fun _ _ call _ _ atMost => draws_curveIntoEnd atMost call,
    followsPath_plain fun _ _ _ _ => draws_closePath,
    followsPath_plain fun _ _ _ _ => draws_appendRectangle⟩

theorem followsPath_colorEntries :
    ∀ e ∈ colorEntries (K := K) (σ := σ), e.Follows FollowsPath := by
  simp only [colorEntries, List.forall_mem_cons, List.not_mem_nil, false_implies, implies_true,
    and_true, followsPath_deviceSetter]
  exact ⟨followsPath_plain fun _ _ _ _ => draws_selectSpace .stroke,
    followsPath_plain fun _ _ _ _ => draws_selectSpace .fill,
    followsPath_plain fun _ _ _ _ => draws_selectColor .stroke false,
    followsPath_plain fun _ _ _ _ => draws_selectColor .stroke true,
    followsPath_plain fun _ _ _ _ => draws_selectColor .fill false,
    followsPath_plain fun _ _ _ _ => draws_selectColor .fill true⟩

/-- The operators that paint the path under construction and begin another one. -/
def pathPaintingKeywords : List String := ["S", "s", "f", "F", "f*", "B", "B*", "b", "b*", "n"]

theorem followsPath_pathPaintingEntries : ∀ e ∈ pathPaintingEntries (K := K) (σ := σ),
    e.keyword ∉ pathPaintingKeywords → e.Follows FollowsPath := by
  have paints {e : TableEntry K (Action K σ)} (among : e.keyword ∈ pathPaintingKeywords) :
      e.keyword ∉ pathPaintingKeywords → e.Follows FollowsPath :=
    fun apart => absurd among apart
  simp only [pathPaintingEntries, List.forall_mem_cons, List.not_mem_nil, false_implies,
    implies_true, and_true]
  refine ⟨paints ?_, paints ?_, paints ?_, paints ?_, paints ?_, paints ?_, paints ?_, paints ?_,
    paints ?_, paints ?_, fun _ => ?_, fun _ => ?_, fun _ => ?_⟩
  case refine_11 => exact followsPath_plain fun _ _ _ _ _ => .modify ⟨rfl, rfl⟩
  case refine_12 => exact followsPath_plain fun _ _ _ _ _ => .modify ⟨rfl, rfl⟩
  case refine_13 => exact followsPath_plain fun _ _ _ _ => draws_paintShading
  all_goals
    simp [pathPaintingKeywords, entry, closeThen, compound]

theorem followsPath_paintingEntries : ∀ e ∈ paintingEntries (K := K) (σ := σ),
    e.keyword ∉ pathPaintingKeywords → e.Follows FollowsPath := by
  simp only [paintingEntries, List.forall_mem_append]
  refine ⟨⟨⟨?_, ?_⟩, followsPath_pathPaintingEntries⟩, ?_⟩
  · intro e mem _
    rw [inlineImageEntries, List.mem_singleton] at mem
    subst mem
    exact followsPath_plain fun _ _ _ _ => draws_showInlineImage
  · exact fun e mem _ => followsPath_pathConstructionEntries e mem
  · exact fun e mem _ => followsPath_colorEntries e mem

/-- Operators that neither change what is saved nor paint the path. -/
def Keeping (keyword : String) : Prop := keyword ∉ stackKeywords ∧ keyword ∉ pathPaintingKeywords

theorem followsPath_expand (call : Call K) (keeping : Keeping call.operator.keyword)
    (env : Environment K σ) (c : Context K σ) :
    FollowsPath env c (graphicsTable.expand call).1 := by
  refine OperatorTable.follows_expand (P := FollowsPath) ?_ ?_ ?_ env c
  · intro env c e isLocal sure less _
    exact .throw isLocal
  · intro env c sure less _
    exact .pure ()
  · intro e found
    rw [find?_graphicsTable, Option.or_eq_some_iff] at found
    rcases found with painting | ⟨_, shared⟩
    · obtain ⟨mem, same⟩ := OperatorTable.mem_of_find?_ofList painting
      exact followsPath_paintingEntries e mem (same ▸ keeping.2)
    · obtain ⟨mem, same⟩ := OperatorTable.mem_of_find?_ofList shared
      exact followsPath_sharedEntries e mem (same ▸ keeping.1)

omit [Scalar K] in
theorem bind_followsPath {x y : Action K σ Unit} (first : FollowsPath env c x)
    (second : ∀ c, FollowsPath env c y) : FollowsPath env c (x >>= fun _ => y) :=
  fun sure less atMost => .bind (first sure less atMost) fun _ c => second c sure less atMost

/-- Carrying out an operator that neither changes what is saved nor paints the path. -/
theorem followsPath_dispatch (call : Call K) (keeping : Keeping call.operator.keyword)
    (c : Context K σ) : FollowsPath env c (graphicsTable.dispatch call) := by
  have all : ∀ link ∈ textLinks ++ paintLinks,
      link.1 ∉ pathPaintingKeywords → link.2 ∉ pathPaintingKeywords := by decide
  refine OperatorTable.dispatchWithin_induction ranked_graphicsTable (P := FollowsPath env)
    (fun _ _ _ _ => .pure ()) bind_followsPath (fun call => Keeping call.operator.keyword) ?_ _ call
    (rank_lt_links call) keeping c
  intro call keeping
  refine ⟨followsPath_expand call keeping env, fun step among => ?_⟩
  have link := link_of_mem_expand call step among
  exact ⟨not_stack_of_mem_expand call step among, all _ link keeping.2⟩

/-! ### Operators that paint the path -/

theorem find?_closePath :
    (graphicsTable (K := K) (σ := σ)).find? "h" = some (entry "h" 0 closePath) :=
  find?_graphicsTable_of_mem (e := entry "h" 0 closePath)
    (by simp [paintingEntries, pathConstructionEntries])

omit [Scalar K] in
theorem expand_closeThen {t : ContentTable K σ} {call : Call K} {keyword next : String}
    (found : t.find? call.operator.keyword = some (closeThen keyword next)) :
    t.expand call = (Pure.pure (), [⟨.plain "h", []⟩, ⟨.plain next, []⟩]) := by
  rw [OperatorTable.expand, found]
  rfl

/-- An operator that closes the path and goes on with another one. -/
theorem dispatch_closeThen {call : Call K} {keyword next : String} {painting : Painting}
    (found : (graphicsTable (K := K) (σ := σ)).find? call.operator.keyword =
      some (closeThen keyword next))
    (goesOn : (graphicsTable (K := K) (σ := σ)).find? next =
      some (entry next 0 (finishPath painting))) :
    (graphicsTable (σ := σ)).dispatch call =
      closePath call >>= fun _ => finishPath painting call := by
  obtain ⟨links, enough⟩ : ∃ links, 3 * (call.operands.length + 1) = links + 1 :=
    ⟨3 * call.operands.length + 2, by omega⟩
  have closes : (graphicsTable (σ := σ)).dispatchWithin links (⟨.plain "h", []⟩ : Call K) =
      closePath (⟨.plain "h", []⟩ : Call K) :=
    OperatorTable.dispatchWithin_of_action find?_closePath (Nat.zero_le _) links
  have paints : (graphicsTable (σ := σ)).dispatchWithin links (⟨.plain next, []⟩ : Call K) =
      finishPath painting (⟨.plain next, []⟩ : Call K) :=
    OperatorTable.dispatchWithin_of_action goesOn (Nat.zero_le _) links
  rw [OperatorTable.dispatch, enough, OperatorTable.dispatchWithin_succ, expand_closeThen found]
  simp only [List.forM_eq_forM, List.forM_cons, List.forM_nil, closes, paints, pure_bind,
    bind_pure_unit]
  rfl

/-- What is found under the keyword of an operator that paints the path. -/
theorem find?_pathPainting {keyword : String} (paints : keyword ∈ pathPaintingKeywords) :
    ∃ painting, (graphicsTable (K := K) (σ := σ)).find? keyword =
        some (entry keyword 0 (finishPath painting)) ∨
      ∃ next, (graphicsTable (K := K) (σ := σ)).find? keyword = some (closeThen keyword next) ∧
        (graphicsTable (K := K) (σ := σ)).find? next =
          some (entry next 0 (finishPath painting)) := by
  have listed {e : TableEntry K (Action K σ)} (mem : e ∈ pathPaintingEntries) :
      graphicsTable.find? e.keyword = some e :=
    find?_graphicsTable_of_mem (List.mem_append_right _
      (List.mem_append_left _ (List.mem_append_right _ mem)))
  have S := listed (e := entry "S" 0 (finishPath .stroke)) (by simp [pathPaintingEntries])
  have f := listed (e := entry "f" 0 (finishPath (.fill .nonZero))) (by simp [pathPaintingEntries])
  have F := listed (e := entry "F" 0 (finishPath (.fill .nonZero))) (by simp [pathPaintingEntries])
  have f' :=
    listed (e := entry "f*" 0 (finishPath (.fill .evenOdd))) (by simp [pathPaintingEntries])
  have B := listed (e := entry "B" 0 (finishPath (.fillStroke .nonZero)))
    (by simp [pathPaintingEntries])
  have B' := listed (e := entry "B*" 0 (finishPath (.fillStroke .evenOdd)))
    (by simp [pathPaintingEntries])
  have n := listed (e := entry "n" 0 (finishPath .nothing)) (by simp [pathPaintingEntries])
  have s := listed (e := closeThen "s" "S") (by simp [pathPaintingEntries])
  have b := listed (e := closeThen "b" "B") (by simp [pathPaintingEntries])
  have b' := listed (e := closeThen "b*" "B*") (by simp [pathPaintingEntries])
  simp only [pathPaintingKeywords, List.mem_cons, List.not_mem_nil, or_false] at paints
  rcases paints with rfl | rfl | rfl | rfl | rfl | rfl | rfl | rfl | rfl | rfl
  · exact ⟨_, .inl S⟩
  · exact ⟨_, .inr ⟨_, s, S⟩⟩
  · exact ⟨_, .inl f⟩
  · exact ⟨_, .inl F⟩
  · exact ⟨_, .inl f'⟩
  · exact ⟨_, .inl B⟩
  · exact ⟨_, .inl B'⟩
  · exact ⟨_, .inr ⟨_, b, B⟩⟩
  · exact ⟨_, .inr ⟨_, b', B'⟩⟩
  · exact ⟨_, .inl n⟩

/-! ### All operators -/

/-- What carrying out a call comes to. -/
inductive Carried (call : Call K) (x : Action K σ Unit) : Prop
  | saves (keyword : call.operator.keyword = "q") (same : x = save call)
  | restores (keyword : call.operator.keyword = "Q") (same : x = restore call)
  | paints (keyword : call.operator.keyword ∈ pathPaintingKeywords) (painting : Painting)
    (same : x = finishPath painting call)
  | closes (keyword : call.operator.keyword ∈ pathPaintingKeywords) (painting : Painting)
    (same : x = closePath call >>= fun _ => finishPath painting call)
  | follows (keeping : Keeping call.operator.keyword) (follows : ∀ env c, FollowsPath env c x)

theorem carried_dispatch (call : Call K) :
    Carried (σ := σ) call (graphicsTable.dispatch call) := by
  by_cases saves : call.operator.keyword = "q"
  · exact .saves saves (dispatch_save saves)
  by_cases restores : call.operator.keyword = "Q"
  · exact .restores restores (dispatch_restore restores)
  by_cases paints : call.operator.keyword ∈ pathPaintingKeywords
  · obtain ⟨painting, found | ⟨next, found, goesOn⟩⟩ := find?_pathPainting (K := K) (σ := σ) paints
    · exact .paints paints painting (OperatorTable.dispatch_of_action found (Nat.zero_le _))
    · exact .closes paints painting (dispatch_closeThen found goesOn)
  · have keeping : Keeping call.operator.keyword :=
      ⟨by simp [stackKeywords, saves, restores], paints⟩
    exact .follows keeping fun env c => followsPath_dispatch call keeping c

end PdfContent.Operators
