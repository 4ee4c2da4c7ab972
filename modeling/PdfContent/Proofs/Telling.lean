import PdfContent.Proofs.Brackets
import PdfContent.Proofs.Lookup
import PdfContent.Proofs.Painting

/-!
# What operators tell the device

Two things hold of everything that a built-in operator tells. An event that comes with a graphics
state comes with the current one. And an operator ends what it has begun: it begins a form or a
pattern cell only below the depth limit, has no more than one begun at a time, and has ended it
again when it is done, also when it fails.

`telling` is the monitor of both. Nested streams are not looked into: what they tell is a matter of
the operators that they are made of.
-/

namespace PdfContent

variable {K σ α β : Type}

/-- The graphics state that the device is given with an event. -/
def Event.state? : Event K σ → Option (GraphicsState K σ)
  | .stroke _ s => some s
  | .fill _ _ s => some s
  | .fillStroke _ _ s => some s
  | .shading _ _ s => some s
  | .image _ s => some s
  | .glyph _ s => some s
  | .snapshot _ _ c => some c.state
  | _ => none

/-- If the event comes with a graphics state, then with this one. -/
def Event.Shows (e : Event K σ) (s : GraphicsState K σ) : Prop := ∀ t, e.state? = some t → t = s

/-- Watches what an operator tells. Its value is the bracket that the operator has begun and not yet
ended. -/
def telling (env : Environment K σ) : Monitor K σ (Option Bracket) where
  allows
    | opened, .tell c e =>
      e.Shows c.state ∧
        match e.edge? with
        | none => True
        | some (.begins _) => opened = none ∧ env.place.depth < env.options.maxDepth
        | some (.ends b) => opened = some b
    | _, _ => True
  next
    | opened, .tell _ e =>
      match e.edge? with
      | none => opened
      | some (.begins b) => some b
      | some (.ends _) => none
    | opened, _ => opened
  answered opened _ := opened

/-- From a context an action tells what it may, and ends what it begins. -/
def Tells (env : Environment K σ) (c : Context K σ) (x : Action K σ α) : Prop :=
  x.Obeys (telling env) env (fun _ opened _ => opened = none) (fun _ opened _ => opened = none) none
    c

namespace Tells

variable {env : Environment K σ} {c : Context K σ}

theorem pure (a : α) : Tells env c (Pure.pure a : Action K σ α) := rfl

theorem throw (e : OperatorError) : Tells env c (MonadExcept.throw e : Action K σ α) := rfl

theorem ofExcept (result : Except OperatorError α) :
    Tells env c (Action.ofExcept result : Action K σ α) := by
  cases result <;> rfl

/-- Two parts of an action in turn. -/
theorem bind {x : Action K σ β} {f : β → Action K σ α} (first : Tells env c x)
    (second : ∀ b c, Tells env c (f b)) : Tells env c (x >>= f) := by
  rw [Tells, Action.obeys_bind]
  refine Action.Obeys.mono first ?_ fun _ _ _ h => h
  rintro b _ c' rfl
  exact second b c'

/-- Reads something that may be missing. -/
theorem read {result : Except OperatorError β} {f : β → Action K σ α}
    (value : ∀ b, result = .ok b → Tells env c (f b)) :
    Tells env c (Action.ofExcept result >>= f) := by
  cases result with
  | error e => rfl
  | ok b => exact value b rfl

theorem environment {f : Environment K σ → Action K σ α} (next : Tells env c (f env)) :
    Tells env c (Action.environment >>= f) := next

theorem context {f : Context K σ → Action K σ α} (next : Tells env c (f c)) :
    Tells env c (Action.context >>= f) := next

theorem state {f : GraphicsState K σ → Action K σ α} (next : Tells env c (f c.state)) :
    Tells env c (Action.state >>= f) := next

theorem modify (f : Context K σ → Context K σ) : Tells env c (Action.modify f) := ⟨trivial, rfl⟩

theorem updateState (f : GraphicsState K σ → GraphicsState K σ) :
    Tells env c (Action.updateState f) := modify _

/-- Something that neither begins nor ends a form or a pattern cell. -/
theorem emit {e : Event K σ} (shows : e.Shows c.state) (quiet : e.edge? = none) :
    Tells env c (Action.emit e) := by
  have unchanged : (telling env).next none (.tell c e) = none := by simp only [telling, quiet]
  refine ⟨⟨shows, ?_⟩, unchanged⟩
  simp only [quiet]

/-- Something without a graphics state. -/
theorem emitPlain {e : Event K σ} (stateless : e.state? = none) (quiet : e.edge? = none) :
    Tells env c (Action.emit e) :=
  emit (fun s given => by cases stateless.symm.trans given) quiet

theorem warn (w : Warning) : Tells env c (Action.warn w : Action K σ Unit) := by
  refine environment ?_
  split
  · exact emitPlain rfl rfl
  · exact pure ()

theorem warnAt (keyword description : String) (code : WarningCode) :
    Tells env c (Action.warnAt keyword code description : Action K σ Unit) :=
  environment (warn _)

theorem warnError (keyword : String) (e : OperatorError) :
    Tells env c (Action.warnError keyword e : Action K σ Unit) :=
  environment (warn _)

/-- What follows on the check is done below the limit only. -/
theorem checkDepth {rest : Action K σ Unit}
    (next : env.place.depth < env.options.maxDepth → Tells env c rest) :
    Tells env c (Action.checkDepth >>= fun _ => rest) := by
  simp only [Tells, Action.checkDepth, Action.obeys_bind, Action.obeys_environment]
  split
  · rfl
  next below => exact next (Nat.not_le.mp below)

theorem nested (content : Bytes) (scope : σ) (setup : GraphicsState K σ → GraphicsState K σ) :
    Tells env c (Action.nested content scope setup) :=
  ⟨trivial, fun answer => ofExcept answer⟩

theorem handle {x : Action K σ α} {f : OperatorError → Action K σ α} (first : Tells env c x)
    (second : ∀ e c, Tells env c (f e)) : Tells env c (x.handle f) := by
  rw [Tells, Action.obeys_handle]
  refine Action.Obeys.mono first (fun _ _ _ h => h) ?_
  rintro e _ c' rfl
  exact second e c'

theorem andFinally {x : Action K σ α} {last : Action K σ Unit} (first : Tells env c x)
    (second : ∀ c, Tells env c last) : Tells env c (x.andFinally last) := by
  rw [Tells, Action.obeys_andFinally]
  refine Action.Obeys.mono first ?_ ?_
  · rintro a _ c' rfl
    exact second c'
  · rintro e _ c' rfl
    exact second c'

/-- A nested stream between an event that begins something and the one that ends it. -/
theorem between {b : Bracket} {first last : Event K σ} {content : Bytes} {scope : σ}
    {setup : GraphicsState K σ → GraphicsState K σ}
    (below : env.place.depth < env.options.maxDepth) (begins : first.edge? = some (.begins b))
    (ends : last.edge? = some (.ends b)) (firstPlain : first.state? = none)
    (lastPlain : last.state? = none) :
    Tells env c (Action.emit first >>= fun _ =>
      (Action.nested content scope setup).andFinally (Action.emit last)) := by
  have plain {e : Event K σ} (stateless : e.state? = none) : e.Shows c.state := by
    intro s given
    cases stateless.symm.trans given
  simp only [Tells, Action.obeys_bind, Action.obeys_andFinally, Action.obeys_nested,
    Action.obeys_emit, telling, begins, ends]
  refine ⟨⟨plain firstPlain, trivial, below⟩, trivial, fun answer => ?_⟩
  refine (Action.obeys_ofExcept answer).mpr ⟨fun _ _ => ?_, fun _ _ => ?_⟩
  · exact ⟨⟨plain lastPlain, rfl⟩, trivial⟩
  · exact ⟨⟨plain lastPlain, rfl⟩, trivial⟩

end Tells

attribute [irreducible] Tells

namespace Operators

variable [Scalar K] {env : Environment K σ} {c : Context K σ}

/-! ### The graphics state and text -/

omit [Scalar K] in
theorem tells_restoreState : Tells env c (restoreState (K := K) (σ := σ)) := by
  refine .context ?_
  split
  · exact .modify _
  · exact .throw _

omit [Scalar K] in
theorem tells_setParameters (call : Call K) : Tells env c (setParameters (σ := σ) call) :=
  .read fun _ _ => .environment (.read fun _ _ => .updateState _)

omit [Scalar K] in
theorem tells_textObject (keyword : String) :
    Tells env c (textObject keyword : Action K σ (TextObject K)) := by
  refine .context ?_
  split
  · exact .pure _
  · exact .throw _

omit [Scalar K] in
theorem tells_updateTextObject (keyword : String) (f : TextObject K → TextObject K) :
    Tells env c (updateTextObject (σ := σ) keyword f) :=
  .bind (tells_textObject keyword) fun _ _ => .modify _

theorem tells_beginText (call : Call K) : Tells env c (beginText (σ := σ) call) :=
  .bind (.modify _) fun _ _ => .emitPlain rfl rfl

omit [Scalar K] in
theorem tells_endText (call : Call K) : Tells env c (endText (σ := σ) call) :=
  .bind (tells_textObject _) fun _ _ => .bind (.modify _) fun _ _ => .emitPlain rfl rfl

theorem tells_setFont (call : Call K) : Tells env c (setFont (σ := σ) call) := by
  refine .read fun name _ => .read fun size _ => .environment ?_
  have select (c : Context K σ) : Tells env c (do
      Action.updateText fun t =>
        { t with
          font := some ((env.resolver.font env.scope name).getD Font.fallback)
          fontName := some name
          fontSize := size }
      if (env.resolver.font env.scope name).isNone then
        throw (OperatorError.missingResource .font name)) := by
    refine .bind (.updateState _) fun _ _ => ?_
    split
    · exact .throw _
    · exact .pure ()
  dsimp only
  split
  · exact .bind (.warnAt _ _ _) fun _ => select
  · exact select c

theorem tells_moveText (call : Call K) : Tells env c (moveText (σ := σ) call) :=
  .read fun _ _ => .read fun _ _ => tells_updateTextObject _ _

theorem tells_setTextMatrix (call : Call K) : Tells env c (setTextMatrix (σ := σ) call) :=
  .read fun _ _ => tells_updateTextObject _ _

theorem tells_nextLine (call : Call K) : Tells env c (nextLine (σ := σ) call) :=
  .state (tells_updateTextObject _ _)

omit [Scalar K] in
/-- A glyph is told with the current state. -/
theorem tells_showGlyph (keyword : String) (glyph : GlyphEvent K σ) :
    Tells env c (showGlyph keyword glyph) := by
  refine .state (.bind (.emit ?_ rfl) fun _ _ => .environment ?_)
  · rintro _ ⟨⟩
    rfl
  split
  · split
    · exact .pure ()
    · refine .handle (.nested _ _ _) fun e _ => ?_
      cases e with
      | fatal cause => exact .throw _
      | _ => exact .warnError _ _
  · exact .pure ()

theorem tells_showCodes (keyword : String) (font : Font K σ) (codes : List (UInt32 × Bytes)) :
    Tells env c (showCodes keyword font codes) := by
  induction codes generalizing c with
  | nil => exact .pure ()
  | cons code rest ih =>
      refine .bind (tells_textObject keyword) fun _ _ => .state ?_
      refine .bind (tells_showGlyph keyword _) fun _ _ => ?_
      exact .bind (tells_updateTextObject keyword _) fun _ _ => ih

theorem tells_showString (keyword : String) (bytes : Bytes) :
    Tells env c (showString (K := K) (σ := σ) keyword bytes) := by
  refine .bind (tells_textObject keyword) fun _ _ => .state ?_
  split
  · exact tells_showCodes _ _ _
  · exact .bind (.warnAt _ _ _) fun _ _ => tells_showCodes _ _ _

theorem tells_showText (call : Call K) : Tells env c (showText (σ := σ) call) :=
  .read fun _ _ => tells_showString _ _

theorem tells_showElements (call : Call K) (index : Nat) (items : List (Operand K)) :
    Tells env c (showElements (σ := σ) call index items) := by
  have adjust (c : Context K σ) (amount : K) :
      Tells env c (showElements.adjust (σ := σ) call amount) :=
    .state (tells_updateTextObject _ _)
  induction items generalizing index c with
  | nil => exact .pure ()
  | cons v rest ih =>
      unfold showElements
      cases v with
      | literal bytes => exact .bind (tells_showString _ _) fun _ _ => ih _
      | hexadecimal bytes => exact .bind (tells_showString _ _) fun _ _ => ih _
      | integer i => exact .bind (adjust c _) fun _ _ => ih _
      | real x => exact .bind (adjust c _) fun _ _ => ih _
      | _ => exact .bind (.throw _) fun _ _ => ih _

theorem tells_showTextAdjusted (call : Call K) : Tells env c (showTextAdjusted (σ := σ) call) :=
  .read fun _ _ => .bind (tells_textObject _) fun _ _ => tells_showElements _ _ _

/-! ### Marked content, forms and images -/

omit [Scalar K] in
theorem tells_beginMarked (call : Call K) : Tells env c (beginMarked (σ := σ) call) :=
  .read fun _ _ => .emitPlain rfl rfl

omit [Scalar K] in
theorem tells_beginMarkedWithProperties (call : Call K) :
    Tells env c (beginMarkedWithProperties (σ := σ) call) := by
  refine .read fun _ _ => .environment ?_
  split
  · exact .emitPlain rfl rfl
  · exact .bind (.emitPlain rfl rfl) fun _ _ => .throw _

omit [Scalar K] in
theorem tells_markPoint (call : Call K) : Tells env c (markPoint (σ := σ) call) :=
  .read fun _ _ => .emitPlain rfl rfl

omit [Scalar K] in
theorem tells_markPointWithProperties (call : Call K) :
    Tells env c (markPointWithProperties (σ := σ) call) :=
  .read fun _ _ => .environment (.read fun _ _ => .emitPlain rfl rfl)

theorem tells_showForm (name : String) (form : Form K σ) : Tells env c (showForm name form) :=
  .checkDepth fun below => .environment (.state (.between below rfl rfl rfl rfl))

omit [Scalar K] in
/-- An image is told with the current state. -/
theorem tells_drawImage (name : Option String) (image : Image)
    (inlineImage : Option (InlineImage K)) :
    Tells env c (drawImage (σ := σ) name image inlineImage) := by
  refine .state (.emit ?_ rfl)
  rintro _ ⟨⟩
  rfl

theorem tells_invoke (call : Call K) : Tells env c (invoke (σ := σ) call) := by
  refine .read fun name _ => .environment (.read fun object _ => ?_)
  cases object with
  | form form => exact tells_showForm name form
  | image image => exact tells_drawImage _ _ _
  | postScript => exact .pure ()

theorem tells_showInlineImage (call : Call K) : Tells env c (showInlineImage (σ := σ) call) := by
  rw [showInlineImage]
  split
  · exact .throw _
  · exact .environment (tells_drawImage _ _ _)

/-! ### Paths -/

theorem tells_devicePoint (call : Call K) (index : Nat) :
    Tells env c (devicePoint (σ := σ) call index) :=
  .read fun _ _ => .read fun _ _ => .state (.pure _)

omit [Scalar K] in
theorem tells_construct (f : PathBuilder K → PathBuilder K) {e : Event K σ}
    (stateless : e.state? = none) (quiet : e.edge? = none) : Tells env c (construct f e) :=
  .bind (.modify _) fun _ _ => .emitPlain stateless quiet

omit [Scalar K] in
theorem tells_fromCurrentPoint (keyword : String) (stop : Point K) (f : Point K → Action K σ Unit)
    (continues : ∀ p c, Tells env c (f p)) : Tells env c (fromCurrentPoint keyword stop f) := by
  refine .context ?_
  split
  · exact continues _ c
  · exact .bind (.warnAt _ _ _) fun _ _ => tells_construct _ rfl rfl

theorem tells_moveTo (call : Call K) : Tells env c (moveTo (σ := σ) call) :=
  .bind (tells_devicePoint call 0) fun _ _ => tells_construct _ rfl rfl

theorem tells_lineTo (call : Call K) : Tells env c (lineTo (σ := σ) call) :=
  .bind (tells_devicePoint call 0) fun _ _ =>
    tells_fromCurrentPoint _ _ _ fun _ _ => tells_construct _ rfl rfl

theorem tells_curveTo (call : Call K) : Tells env c (curveTo (σ := σ) call) :=
  .bind (tells_devicePoint call 0) fun _ _ => .bind (tells_devicePoint call 2) fun _ _ =>
    .bind (tells_devicePoint call 4) fun _ _ =>
      tells_fromCurrentPoint _ _ _ fun _ _ => tells_construct _ rfl rfl

theorem tells_curveFromCurrent (call : Call K) : Tells env c (curveFromCurrent (σ := σ) call) :=
  .bind (tells_devicePoint call 0) fun _ _ => .bind (tells_devicePoint call 2) fun _ _ =>
    tells_fromCurrentPoint _ _ _ fun _ _ => tells_construct _ rfl rfl

theorem tells_curveIntoEnd (call : Call K) : Tells env c (curveIntoEnd (σ := σ) call) :=
  .bind (tells_devicePoint call 0) fun _ _ => .bind (tells_devicePoint call 2) fun _ _ =>
    tells_fromCurrentPoint _ _ _ fun _ _ => tells_construct _ rfl rfl

omit [Scalar K] in
theorem tells_closePath (call : Call K) : Tells env c (closePath (σ := σ) call) := by
  refine .context ?_
  split
  · exact tells_construct _ rfl rfl
  · exact .pure ()

theorem tells_appendRectangle (call : Call K) : Tells env c (appendRectangle (σ := σ) call) :=
  .read fun _ _ => .read fun _ _ => .read fun _ _ => .read fun _ _ =>
    .state (tells_construct _ rfl rfl)

theorem tells_paintCell (name : String) (pattern : TilingPattern K σ)
    (paint : Option (ColorSpace × Color K)) : Tells env c (paintCell name pattern paint) :=
  .checkDepth fun below => .environment (.between below rfl rfl rfl rfl)

theorem tells_paintCellAlone (name : String) (pattern : TilingPattern K σ)
    (paint : Option (ColorSpace × Color K)) : Tells env c (paintCellAlone name pattern paint) := by
  refine .handle (tells_paintCell name pattern paint) fun e _ => ?_
  cases e with
  | fatal cause => exact .throw _
  | _ => exact .warnError _ _

theorem tells_expandPattern (area : Path K) (rule : FillRule) :
    Tells env c (expandPattern (σ := σ) area rule) := by
  refine .environment (.state ?_)
  split
  · exact .pure ()
  · refine .bind (.modify _) fun _ _ => .bind (.updateState _) fun _ _ => ?_
    exact .andFinally (tells_paintCell _ _ _) fun _ => tells_restoreState

theorem tells_expandFill (painting : Painting) (path : Path K) :
    Tells env c (expandFill (σ := σ) painting path) := by
  rw [expandFill]
  split
  · exact tells_expandPattern _ _
  · exact .pure ()

/-- A path is painted with the state of before the clip. -/
theorem tells_finishPath (painting : Painting) (call : Call K) :
    Tells env c (finishPath (σ := σ) painting call) := by
  refine .bind (.context (.bind (.modify _) fun _ _ => .pure _)) fun (path, clip) c => ?_
  dsimp only
  split
  · exact .pure ()
  have shows : (painting.event path c.state).Shows c.state := by
    cases painting <;> rintro _ ⟨⟩ <;> rfl
  have quiet : (painting.event path c.state : Event K σ).edge? = none := by
    cases painting <;> rfl
  refine .state (.bind (.emit shows quiet) fun _ c => ?_)
  cases clip with
  | none => exact tells_expandFill painting path
  | some rule =>
      refine .bind ?_ fun _ _ => tells_expandFill painting path
      exact .bind (.emitPlain rfl rfl) fun _ _ => .updateState _

omit [Scalar K] in
/-- A shading is told with the current state. -/
theorem tells_paintShading (call : Call K) : Tells env c (paintShading (σ := σ) call) := by
  refine .read fun _ _ => .environment (.read fun _ _ => .state (.emit ?_ rfl))
  rintro _ ⟨⟩
  rfl

/-! ### Colours -/

theorem tells_selectSpace (target : PaintTarget) (call : Call K) :
    Tells env c (selectSpace (σ := σ) target call) :=
  .read fun _ _ => .environment (.read fun _ _ => .updateState _)

theorem tells_selectColor (target : PaintTarget) (patterns : Bool) (call : Call K) :
    Tells env c (selectColor (σ := σ) target patterns call) :=
  .state (.read fun _ _ => .updateState _)

/-! ### The tables -/

omit [Scalar K] in
theorem tells_action {keyword : String} {minOperands : Nat} {run : Call K → Action K σ Unit}
    (tells : ∀ env c call, Tells env c (run call)) :
    (entry keyword minOperands run).Follows Tells :=
  tells

omit [Scalar K] in
theorem tells_setter {keyword : String} {minOperands : Nat}
    {change : Call K → Except OperatorError (GraphicsState K σ → GraphicsState K σ)} :
    (setter keyword minOperands change).Follows Tells :=
  fun _ _ _ => .read fun _ _ => .updateState _

theorem tells_textSetter (keyword : String) (set : K → TextState K σ → TextState K σ) :
    (textSetter keyword set).Follows Tells :=
  tells_setter

theorem tells_deviceSetter (keyword : String) (target : PaintTarget) (space : ColorSpace) :
    (deviceSetter (K := K) (σ := σ) keyword target space).Follows Tells :=
  tells_setter

omit [Scalar K] in
theorem tells_ignored (keyword : String) (minOperands : Nat) :
    (ignored (K := K) (σ := σ) keyword minOperands).Follows Tells :=
  fun _ _ _ => .pure ()

omit [Scalar K] in
theorem tells_closeThen (keyword next : String) :
    (closeThen (K := K) (σ := σ) keyword next).Follows Tells :=
  fun _ => .ok _

theorem tells_stateEntries : ∀ e ∈ stateEntries (K := K) (σ := σ), e.Follows Tells := by
  simp only [stateEntries, List.forall_mem_cons, List.not_mem_nil, false_implies, implies_true,
    and_true, tells_setter, true_and]
  exact ⟨tells_action fun _ _ _ => .modify _, tells_action fun _ _ _ => tells_restoreState,
    tells_action fun _ _ => tells_setParameters⟩

theorem tells_textStateEntries : ∀ e ∈ textStateEntries (K := K) (σ := σ), e.Follows Tells := by
  simp only [textStateEntries, List.forall_mem_cons, List.not_mem_nil, false_implies, implies_true,
    and_true, tells_setter, tells_textSetter, true_and]
  refine ⟨tells_action fun _ _ => tells_beginText, tells_action fun _ _ => tells_endText,
    tells_action fun _ _ => tells_setFont, tells_action fun _ _ => tells_moveText, ?_,
    tells_action fun _ _ => tells_setTextMatrix, tells_action fun _ _ => tells_nextLine⟩
  intro call
  exact (call.localResult_number 1).bind fun _ => .ok _

theorem tells_textShowingEntries :
    ∀ e ∈ textShowingEntries (K := K) (σ := σ), e.Follows Tells := by
  simp only [textShowingEntries, List.forall_mem_cons, List.not_mem_nil, false_implies,
    implies_true, and_true, tells_ignored]
  exact ⟨tells_action fun _ _ => tells_showText, tells_action fun _ _ => tells_showTextAdjusted,
    fun _ => .ok _, fun _ => .ok _⟩

omit [Scalar K] in
theorem tells_markedEntries : ∀ e ∈ markedEntries (K := K) (σ := σ), e.Follows Tells := by
  simp only [markedEntries, List.forall_mem_cons, List.not_mem_nil, false_implies, implies_true,
    and_true]
  exact ⟨tells_action fun _ _ => tells_beginMarked,
    tells_action fun _ _ => tells_beginMarkedWithProperties,
    tells_action fun _ _ _ => .emitPlain rfl rfl, tells_action fun _ _ => tells_markPoint,
    tells_action fun _ _ => tells_markPointWithProperties, tells_action fun _ _ _ => .modify _,
    tells_action fun _ _ _ => .modify _⟩

theorem tells_pathConstructionEntries :
    ∀ e ∈ pathConstructionEntries (K := K) (σ := σ), e.Follows Tells := by
  simp only [pathConstructionEntries, List.forall_mem_cons, List.not_mem_nil, false_implies,
    implies_true, and_true]
  exact ⟨tells_action fun _ _ => tells_moveTo, tells_action fun _ _ => tells_lineTo,
    tells_action fun _ _ => tells_curveTo, tells_action fun _ _ => tells_curveFromCurrent,
    tells_action fun _ _ => tells_curveIntoEnd, tells_action fun _ _ => tells_closePath,
    tells_action fun _ _ => tells_appendRectangle⟩

theorem tells_pathPaintingEntries :
    ∀ e ∈ pathPaintingEntries (K := K) (σ := σ), e.Follows Tells := by
  have finishing (keyword : String) (painting : Painting) :
      (entry (K := K) (σ := σ) keyword 0 (finishPath painting)).Follows Tells :=
    tells_action fun _ _ => tells_finishPath painting
  simp only [pathPaintingEntries, List.forall_mem_cons, List.not_mem_nil, false_implies,
    implies_true, and_true, finishing, tells_closeThen, true_and]
  exact ⟨tells_action fun _ _ _ => .modify _, tells_action fun _ _ _ => .modify _,
    tells_action fun _ _ => tells_paintShading⟩

theorem tells_colorEntries : ∀ e ∈ colorEntries (K := K) (σ := σ), e.Follows Tells := by
  simp only [colorEntries, List.forall_mem_cons, List.not_mem_nil, false_implies, implies_true,
    and_true, tells_deviceSetter]
  exact ⟨tells_action fun _ _ => tells_selectSpace .stroke,
    tells_action fun _ _ => tells_selectSpace .fill,
    tells_action fun _ _ => tells_selectColor .stroke false,
    tells_action fun _ _ => tells_selectColor .stroke true,
    tells_action fun _ _ => tells_selectColor .fill false,
    tells_action fun _ _ => tells_selectColor .fill true⟩

theorem tells_sharedEntries : ∀ e ∈ sharedEntries (K := K) (σ := σ), e.Follows Tells := by
  simp only [sharedEntries, List.forall_mem_append]
  refine ⟨⟨⟨⟨tells_stateEntries, tells_textStateEntries⟩, tells_textShowingEntries⟩,
    tells_markedEntries⟩, ?_⟩
  simpa only [formEntries, List.forall_mem_singleton] using tells_action fun _ _ => tells_invoke

theorem tells_paintingEntries : ∀ e ∈ paintingEntries (K := K) (σ := σ), e.Follows Tells := by
  simp only [paintingEntries, List.forall_mem_append]
  refine ⟨⟨⟨?_, tells_pathConstructionEntries⟩, tells_pathPaintingEntries⟩, tells_colorEntries⟩
  simpa only [inlineImageEntries, List.forall_mem_singleton] using
    tells_action fun _ _ => tells_showInlineImage

/-- Whatever carrying out an operator begins with tells what it may. -/
theorem tells_expand (env : Environment K σ) (c : Context K σ) (call : Call K) :
    Tells env c (graphicsTable.expand call).1 := by
  refine OperatorTable.follows_expand (fun _ _ _ _ => .throw _) (fun _ _ => .pure ()) ?_ env c
  intro e found
  rw [find?_graphicsTable, Option.or_eq_some_iff] at found
  rcases found with painting | ⟨_, shared⟩
  · exact tells_paintingEntries e (OperatorTable.mem_of_find?_ofList painting).1
  · exact tells_sharedEntries e (OperatorTable.mem_of_find?_ofList shared).1

/-- Carrying out an operator, with the operators that it stands for. -/
theorem tells_dispatch (call : Call K) (c : Context K σ) :
    Tells env c (graphicsTable.dispatch call) :=
  OperatorTable.dispatchWithin_induction ranked_graphicsTable (fun _ => .pure ())
    (fun first later => .bind first fun _ => later) (fun _ => True)
    (fun call _ => ⟨fun c => tells_expand env c call, by simp⟩) _ call (rank_lt_links call) trivial
    c

end Operators

end PdfContent
