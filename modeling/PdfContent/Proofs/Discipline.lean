import PdfContent.Proofs.Lookup
import PdfContent.Proofs.Remarks

/-!
# The discipline of operators

Three things that operators do not do are needed to follow a stream by its log alone. An operator
shows a glyph or ends a text object only while the device knows of one that is open. It makes no
other warnings than remarks, and does not make any if it can fail by the depth limit. And it keeps
the number of compatibility sections, unless it is `BX` or `EX`.

`discipline` watches all of this. Its value is whether a text object is open according to what the
device has been told. Between two steps this is what the context says; within `BT` and `ET` the
two differ for a moment. The monitor sees any answer of a nested stream, and stops to watch after one
that no stream gives.
-/

namespace PdfContent

variable {K σ α β : Type}

/-- Watches whether text is told in order, which warnings are made, and the number of compatibility
sections. Its value is whether a text object has been begun and not ended; there is none after a
nested stream has answered in a way in which none does. -/
def discipline (place : Place) (remarks : Bool) : Monitor K σ (Option Bool) where
  allows
    | none, _ => True
    | some _, .change before after => after.compatibility = before.compatibility
    | some opened, .tell _ .endText => opened = true
    | some opened, .tell _ (.glyph _ _) => opened = true
    | some _, .tell _ (.warning w) => remarks = true ∧ IsRemark place w
    | some _, _ => True
  next
    | some _, .tell _ .beginText => some true
    | some _, .tell _ .endText => some false
    | opened, _ => opened
  answered
    | opened, .ok _ => opened
    | opened, .error (.fatal _) => opened
    | opened, .error (.recursionLimit _) => opened
    | _, .error _ => none

/-- The device knows whether a text object is open. -/
def Settled (opened : Option Bool) (c : Context K σ) : Prop :=
  ∀ o, opened = some o → c.text.isSome = o

/-- From a context an action keeps to the discipline. -/
def Orderly (remarks : Bool) (env : Environment K σ) (c : Context K σ) (x : Action K σ α) : Prop :=
  x.Obeys (discipline env.place remarks) env (fun _ => Settled)
    (fun e opened c => Settled opened c ∧ (opened.isSome → Permits remarks e)) (some c.text.isSome)
    c

/-- An event that is no warning and tells of no text. -/
def Event.IsPlain : Event K σ → Prop
  | .beginText => False
  | .endText => False
  | .glyph _ _ => False
  | .warning _ => False
  | _ => True

theorem settled_self (c : Context K σ) : Settled (some c.text.isSome) c := by
  rintro _ ⟨⟩
  rfl

/-- After an answer that no stream gives nothing is watched. -/
theorem Action.obeys_discipline_none (place : Place) (remarks : Bool) (env : Environment K σ)
    (x : Action K σ α) (c : Context K σ) :
    x.Obeys (discipline place remarks) env (fun _ opened _ => opened = none)
      (fun _ opened _ => opened = none) none c := by
  induction x generalizing c with
  | finish result => cases result <;> rfl
  | look next ih => exact ih _ _ c
  | change f next ih => exact ⟨trivial, ih _⟩
  | tell e next ih => exact ⟨trivial, ih c⟩
  | nest content scope setup next ih =>
      refine ⟨trivial, fun answer => ?_⟩
      have none : (discipline (K := K) (σ := σ) place remarks).answered none answer = none := by
        rcases answer with (_ | _ | _ | _ | _ | _ | _ | _ | _) | _ <;> rfl
      rw [none]
      exact ih answer c

namespace Orderly

variable {remarks : Bool} {env : Environment K σ} {c : Context K σ}

/-- Nothing has to be shown of what is not watched. -/
theorem unwatched (remarks : Bool) (env : Environment K σ) (x : Action K σ α) (c : Context K σ) :
    x.Obeys (discipline env.place remarks) env (fun _ => Settled)
      (fun e opened c => Settled opened c ∧ (opened.isSome → Permits remarks e)) none c := by
  refine Action.Obeys.mono (Action.obeys_discipline_none _ _ env x c) ?_ ?_
  · rintro _ _ _ rfl _ ⟨⟩
  · rintro _ _ _ rfl
    exact ⟨by rintro _ ⟨⟩, by rintro ⟨⟩⟩

/-- What holds of the rest of an action from each context holds whatever the monitor's value is, if
that is settled. -/
theorem from_settled {opened : Option Bool} {x : Action K σ α} (settled : Settled opened c)
    (orderly : Orderly remarks env c x) :
    x.Obeys (discipline env.place remarks) env (fun _ => Settled)
      (fun e opened c => Settled opened c ∧ (opened.isSome → Permits remarks e)) opened c := by
  cases opened with
  | none => exact unwatched remarks env x c
  | some o =>
      rw [← settled o rfl]
      exact orderly

theorem pure (a : α) : Orderly remarks env c (Pure.pure a : Action K σ α) := settled_self c

theorem throw {e : OperatorError} (permits : Permits remarks e) :
    Orderly remarks env c (MonadExcept.throw e : Action K σ α) :=
  ⟨settled_self c, fun _ => permits⟩

/-- Two parts of an action in turn. -/
theorem bind {x : Action K σ β} {f : β → Action K σ α} (first : Orderly remarks env c x)
    (second : ∀ b c, Orderly remarks env c (f b)) : Orderly remarks env c (x >>= f) := by
  rw [Orderly, Action.obeys_bind]
  exact Action.Obeys.mono first (fun b _ c settled => from_settled settled (second b c))
    fun _ _ _ h => h

/-- Reads something that may be missing. -/
theorem read {result : Except OperatorError β} {f : β → Action K σ α}
    (argument : ArgumentResult result) (value : ∀ b, Orderly remarks env c (f b)) :
    Orderly remarks env c (Action.ofExcept result >>= f) := by
  cases result with
  | error e => exact throw ((argument e rfl).permits remarks)
  | ok b => exact value b

theorem environment {f : Environment K σ → Action K σ α} (next : Orderly remarks env c (f env)) :
    Orderly remarks env c (Action.environment >>= f) := next

theorem context {f : Context K σ → Action K σ α} (next : Orderly remarks env c (f c)) :
    Orderly remarks env c (Action.context >>= f) := next

theorem state {f : GraphicsState K σ → Action K σ α} (next : Orderly remarks env c (f c.state)) :
    Orderly remarks env c (Action.state >>= f) := next

/-- A change that neither begins nor ends a text object. -/
theorem modify {f : Context K σ → Context K σ} (text : (f c).text.isSome = c.text.isSome)
    (sections : (f c).compatibility = c.compatibility) :
    Orderly remarks env c (Action.modify f) := by
  refine ⟨sections, ?_⟩
  rintro _ ⟨⟩
  exact text

theorem updateState (f : GraphicsState K σ → GraphicsState K σ) :
    Orderly remarks env c (Action.updateState f) := modify rfl rfl

theorem emit {e : Event K σ} (plain : e.IsPlain) : Orderly remarks env c (Action.emit e) := by
  cases e <;> first | exact ⟨trivial, settled_self c⟩ | exact plain.elim

theorem emitGlyph (opened : c.text.isSome) (glyph : GlyphEvent K σ) (state : GraphicsState K σ) :
    Orderly remarks env c (Action.emit (.glyph glyph state)) :=
  ⟨opened, settled_self c⟩

theorem warn {w : Warning} (remark : IsRemark env.place w) :
    Orderly true env c (Action.warn w : Action K σ Unit) :=
  Action.Obeys.warn w ⟨⟨rfl, remark⟩, rfl⟩ (settled_self c)

theorem warnAt {keyword description : String} {code : WarningCode}
    (remark : IsRemark env.place ((Warning.withCode code description).atOperator keyword
      env.place.index env.place.depth)) :
    Orderly true env c (Action.warnAt keyword code description : Action K σ Unit) :=
  environment (warn remark)

theorem checkDepth {rest : Action K σ Unit} (next : Orderly false env c rest) :
    Orderly false env c (Action.checkDepth >>= fun _ => rest) := by
  simp only [Orderly, Action.checkDepth, Action.obeys_bind, Action.obeys_environment]
  split
  · exact ⟨settled_self c, fun _ => rfl⟩
  · exact next

/-- An operator that makes no remarks may fail with what a nested stream has answered. -/
theorem nested (content : Bytes) (scope : σ) (setup : GraphicsState K σ → GraphicsState K σ) :
    Orderly false env c (Action.nested content scope setup) := by
  refine ⟨trivial, fun answer => ?_⟩
  cases answer with
  | ok _ => exact settled_self c
  | error e =>
      cases e with
      | fatal cause => exact ⟨settled_self c, fun _ => trivial⟩
      | recursionLimit limit => exact ⟨settled_self c, fun _ => rfl⟩
      | _ => exact ⟨by rintro _ ⟨⟩, by rintro ⟨⟩⟩

theorem andFinally {x : Action K σ α} {last : Action K σ Unit} (first : Orderly remarks env c x)
    (second : ∀ c, Orderly remarks env c last) : Orderly remarks env c (x.andFinally last) := by
  rw [Orderly, Action.obeys_andFinally]
  refine Action.Obeys.mono first ?_ ?_
  · intro _ opened c settled
    exact Action.Obeys.mono (from_settled settled (second c)) (fun _ _ _ h => h) fun _ _ _ h => h
  · rintro e opened c ⟨settled, permits⟩
    cases opened with
    | none =>
        refine Action.Obeys.mono (Action.obeys_discipline_none _ _ env last c) ?_ ?_
        · rintro _ _ _ rfl
          exact ⟨by rintro _ ⟨⟩, by rintro ⟨⟩⟩
        · rintro _ _ _ rfl
          exact ⟨by rintro _ ⟨⟩, by rintro ⟨⟩⟩
    | some o =>
        refine Action.Obeys.mono (from_settled settled (second c)) ?_ fun _ _ _ h => h
        exact fun _ _ _ settled => ⟨settled, fun _ => permits rfl⟩

/-- A nested stream after which the operator goes on, except that it passes on a fault. What is not
run at the depth limit is remarked on. -/
theorem nestedHandle {content : Bytes} {scope : σ} {setup : GraphicsState K σ → GraphicsState K σ}
    {keyword : String} :
    Orderly true env c ((Action.nested content scope setup).handle fun
      | .fatal cause => MonadExcept.throw (OperatorError.fatal cause)
      | e => Action.warnError keyword e) := by
  simp only [Orderly, Action.obeys_handle, Action.obeys_nested]
  refine ⟨trivial, fun answer => ?_⟩
  cases answer with
  | ok _ => exact settled_self c
  | error e =>
      cases e with
      | fatal cause => exact ⟨settled_self c, fun _ => trivial⟩
      | recursionLimit limit => exact environment (warn (.tooDeep keyword limit))
      | _ => exact unwatched true env (Action.warnError keyword _) c

/-- What follows on the text object is done while one is open. -/
theorem textObject {keyword : String} {f : TextObject K → Action K σ α}
    (next : ∀ object, c.text = some object → Orderly remarks env c (f object)) :
    Orderly remarks env c (Operators.textObject keyword >>= f) := by
  rw [Operators.textObject, bind_assoc]
  refine context ?_
  cases opened : c.text with
  | none => exact throw trivial
  | some object => exact next object opened

end Orderly

attribute [irreducible] Orderly

namespace Operators

variable {remarks : Bool} {env : Environment K σ} {c : Context K σ}

/-! ### Text -/

theorem orderly_updateTextObject (keyword : String) (f : TextObject K → TextObject K) :
    Orderly remarks env c (updateTextObject (σ := σ) keyword f) :=
  .textObject fun _ opened => .modify (by rw [opened]; rfl) rfl

theorem orderly_endText (call : Call K) : Orderly remarks env c (endText (σ := σ) call) := by
  refine .textObject fun object opened => ?_
  simp only [Orderly, Action.obeys_bind, Action.obeys_modify, Action.obeys_emit]
  refine ⟨rfl, ?_, ?_⟩
  · exact congrArg Option.isSome opened
  · rintro _ ⟨⟩
    rfl

theorem orderly_showGlyph (keyword : String) (glyph : GlyphEvent K σ) (opened : c.text.isSome) :
    Orderly true env c (showGlyph keyword glyph) := by
  refine .state (.bind (.emitGlyph opened _ _) fun _ _ => .environment ?_)
  split
  · split
    · exact .pure ()
    · exact .nestedHandle
  · exact .pure ()

variable [Scalar K]

theorem orderly_beginText (call : Call K) : Orderly remarks env c (beginText (σ := σ) call) := by
  simp only [Orderly, beginText, Action.obeys_bind, Action.obeys_modify, Action.obeys_emit]
  refine ⟨rfl, trivial, ?_⟩
  rintro _ ⟨⟩
  rfl

theorem orderly_setFont (call : Call K) : Orderly true env c (setFont (σ := σ) call) := by
  refine .read (call.argument_read 0 _ _) fun name => .read (call.argument_number 1) fun size =>
    .environment ?_
  have select (c : Context K σ) : Orderly true env c (do
      Action.updateText fun t =>
        { t with
          font := some ((env.resolver.font env.scope name).getD Font.fallback)
          fontName := some name
          fontSize := size }
      if (env.resolver.font env.scope name).isNone then
        throw (OperatorError.missingResource .font name)) := by
    refine .bind (.updateState _) fun _ _ => ?_
    split
    · exact .throw trivial
    · exact .pure ()
  dsimp only
  split
  · exact .bind (.warnAt (.vertical _ name)) fun _ => select
  · exact select c

theorem orderly_moveText (call : Call K) : Orderly remarks env c (moveText (σ := σ) call) :=
  .read (call.argument_number 0) fun _ => .read (call.argument_number 1) fun _ =>
    orderly_updateTextObject _ _

theorem orderly_setTextMatrix (call : Call K) :
    Orderly remarks env c (setTextMatrix (σ := σ) call) :=
  .read call.argument_matrix fun _ => orderly_updateTextObject _ _

theorem orderly_nextLine (call : Call K) : Orderly remarks env c (nextLine (σ := σ) call) :=
  .state (orderly_updateTextObject _ _)

theorem orderly_showCodes (keyword : String) (font : Font K σ) (codes : List (UInt32 × Bytes)) :
    Orderly true env c (showCodes keyword font codes) := by
  induction codes generalizing c with
  | nil => exact .pure ()
  | cons code rest ih =>
      refine .textObject fun object opened => .state ?_
      refine .bind (orderly_showGlyph keyword _ (by rw [opened]; rfl)) fun _ _ => ?_
      exact .bind (orderly_updateTextObject keyword _) fun _ _ => ih

theorem orderly_showString (keyword : String) (bytes : Bytes) :
    Orderly true env c (showString (K := K) (σ := σ) keyword bytes) := by
  refine .textObject fun _ _ => .state ?_
  split
  · exact orderly_showCodes _ _ _
  · exact .bind (.warnAt (.fontless keyword)) fun _ _ => orderly_showCodes _ _ _

theorem orderly_showText (call : Call K) : Orderly true env c (showText (σ := σ) call) :=
  .read (call.argument_read 0 _ _) fun _ => orderly_showString _ _

theorem orderly_showElements (call : Call K) (index : Nat) (items : List (Operand K)) :
    Orderly true env c (showElements (σ := σ) call index items) := by
  have adjust (c : Context K σ) (amount : K) :
      Orderly true env c (showElements.adjust (σ := σ) call amount) :=
    .state (orderly_updateTextObject _ _)
  induction items generalizing index c with
  | nil => exact .pure ()
  | cons v rest ih =>
      unfold showElements
      cases v with
      | literal bytes => exact .bind (orderly_showString _ _) fun _ _ => ih _
      | hexadecimal bytes => exact .bind (orderly_showString _ _) fun _ _ => ih _
      | integer i => exact .bind (adjust c _) fun _ _ => ih _
      | real x => exact .bind (adjust c _) fun _ _ => ih _
      | _ => exact .bind (.throw trivial) fun _ _ => ih _

theorem orderly_showTextAdjusted (call : Call K) :
    Orderly true env c (showTextAdjusted (σ := σ) call) :=
  .read (call.argument_read 0 _ _) fun _ => .textObject fun _ _ => orderly_showElements _ _ _

/-! ### The graphics state, marked content, forms and images -/

omit [Scalar K] in
theorem orderly_restoreState : Orderly remarks env c (restoreState (K := K) (σ := σ)) := by
  refine .context ?_
  split
  · exact .modify rfl rfl
  · exact .throw trivial

omit [Scalar K] in
theorem orderly_setParameters (call : Call K) :
    Orderly remarks env c (setParameters (σ := σ) call) :=
  .read (call.argument_read 0 _ _) fun _ => .environment (.read (argument_require _ _ _) fun _ =>
    .updateState _)

omit [Scalar K] in
theorem orderly_beginMarked (call : Call K) : Orderly remarks env c (beginMarked (σ := σ) call) :=
  .read (call.argument_read 0 _ _) fun _ => .emit trivial

omit [Scalar K] in
theorem orderly_beginMarkedWithProperties (call : Call K) :
    Orderly remarks env c (beginMarkedWithProperties (σ := σ) call) := by
  refine .read (call.argument_read 0 _ _) fun _ => .environment ?_
  have argument := argument_propertyList env call
  cases found : propertyList env call with
  | ok properties => exact .emit trivial
  | error e =>
      exact .bind (.emit trivial) fun _ _ => .throw ((argument e found).permits remarks)

omit [Scalar K] in
theorem orderly_markPoint (call : Call K) : Orderly remarks env c (markPoint (σ := σ) call) :=
  .read (call.argument_read 0 _ _) fun _ => .emit trivial

omit [Scalar K] in
theorem orderly_markPointWithProperties (call : Call K) :
    Orderly remarks env c (markPointWithProperties (σ := σ) call) :=
  .read (call.argument_read 0 _ _) fun _ =>
    .environment (.read (argument_propertyList _ _) fun _ => .emit trivial)

theorem orderly_showForm (name : String) (form : Form K σ) :
    Orderly false env c (showForm name form) :=
  .checkDepth <| .environment <| .state <| .bind (.emit trivial) fun _ _ =>
    .andFinally (.nested _ _ _) fun _ => .emit trivial

omit [Scalar K] in
theorem orderly_drawImage (name : Option String) (image : Image)
    (inlineImage : Option (InlineImage K)) :
    Orderly remarks env c (drawImage (σ := σ) name image inlineImage) :=
  .state (.emit trivial)

theorem orderly_invoke (call : Call K) : Orderly false env c (invoke (σ := σ) call) := by
  refine .read (call.argument_read 0 _ _) fun name => .environment ?_
  refine .read (argument_require _ _ _) fun object => ?_
  cases object with
  | form form => exact orderly_showForm name form
  | image image => exact orderly_drawImage _ _ _
  | postScript => exact .pure ()

theorem orderly_showInlineImage (call : Call K) :
    Orderly remarks env c (showInlineImage (σ := σ) call) := by
  rw [showInlineImage]
  split
  · exact .throw trivial
  · exact .environment (orderly_drawImage _ _ _)

/-! ### Paths -/

theorem orderly_devicePoint (call : Call K) (index : Nat) :
    Orderly remarks env c (devicePoint (σ := σ) call index) :=
  .read (call.argument_number _) fun _ => .read (call.argument_number _) fun _ => .state (.pure _)

omit [Scalar K] in
theorem orderly_construct (f : PathBuilder K → PathBuilder K) {e : Event K σ} (plain : e.IsPlain) :
    Orderly remarks env c (construct f e) :=
  .bind (.modify rfl rfl) fun _ _ => .emit plain

omit [Scalar K] in
theorem orderly_fromCurrentPoint (keyword : String) (stop : Point K)
    (f : Point K → Action K σ Unit) (continues : ∀ p c, Orderly true env c (f p)) :
    Orderly true env c (fromCurrentPoint keyword stop f) := by
  refine .context ?_
  split
  · exact continues _ c
  · exact .bind (.warnAt (.pointless keyword)) fun _ _ => orderly_construct _ trivial

theorem orderly_moveTo (call : Call K) : Orderly remarks env c (moveTo (σ := σ) call) :=
  .bind (orderly_devicePoint call 0) fun _ _ => orderly_construct _ trivial

theorem orderly_lineTo (call : Call K) : Orderly true env c (lineTo (σ := σ) call) :=
  .bind (orderly_devicePoint call 0) fun _ _ =>
    orderly_fromCurrentPoint _ _ _ fun _ _ => orderly_construct _ trivial

theorem orderly_curveTo (call : Call K) : Orderly true env c (curveTo (σ := σ) call) :=
  .bind (orderly_devicePoint call 0) fun _ _ => .bind (orderly_devicePoint call 2) fun _ _ =>
    .bind (orderly_devicePoint call 4) fun _ _ =>
      orderly_fromCurrentPoint _ _ _ fun _ _ => orderly_construct _ trivial

theorem orderly_curveFromCurrent (call : Call K) :
    Orderly true env c (curveFromCurrent (σ := σ) call) :=
  .bind (orderly_devicePoint call 0) fun _ _ => .bind (orderly_devicePoint call 2) fun _ _ =>
    orderly_fromCurrentPoint _ _ _ fun _ _ => orderly_construct _ trivial

theorem orderly_curveIntoEnd (call : Call K) : Orderly true env c (curveIntoEnd (σ := σ) call) :=
  .bind (orderly_devicePoint call 0) fun _ _ => .bind (orderly_devicePoint call 2) fun _ _ =>
    orderly_fromCurrentPoint _ _ _ fun _ _ => orderly_construct _ trivial

omit [Scalar K] in
theorem orderly_closePath (call : Call K) : Orderly remarks env c (closePath (σ := σ) call) := by
  refine .context ?_
  split
  · exact orderly_construct _ trivial
  · exact .pure ()

theorem orderly_appendRectangle (call : Call K) :
    Orderly remarks env c (appendRectangle (σ := σ) call) :=
  .read (call.argument_number 0) fun _ => .read (call.argument_number 1) fun _ =>
    .read (call.argument_number 2) fun _ => .read (call.argument_number 3) fun _ =>
      .state (orderly_construct _ trivial)

theorem orderly_paintCell (name : String) (pattern : TilingPattern K σ)
    (paint : Option (ColorSpace × Color K)) : Orderly false env c (paintCell name pattern paint) :=
  .checkDepth <| .environment <| .bind (.emit trivial) fun _ _ =>
    .andFinally (.nested _ _ _) fun _ => .emit trivial

/-- A cell outside all streams, which is remarked on if the depth limit is zero. -/
theorem orderly_paintCellAlone (name : String) (pattern : TilingPattern K σ)
    (paint : Option (ColorSpace × Color K)) :
    Orderly true env c (paintCellAlone name pattern paint) := by
  have deep (limit : Nat) : Orderly true env c
      (Action.warnError (K := K) (σ := σ) "PaintType" (.recursionLimit limit)) :=
    .environment (.warn (.tooDeep "PaintType" limit))
  simp only [Orderly, paintCellAlone, paintCell, Action.checkDepth, Action.obeys_handle,
    Action.obeys_bind, Action.obeys_environment] at deep ⊢
  split
  · exact deep _
  simp only [Action.obeys_pure, Action.obeys_emit, Action.obeys_andFinally, Action.obeys_nested]
  refine ⟨trivial, trivial, fun answer => ?_⟩
  cases answer with
  | ok _ => exact ⟨trivial, settled_self c⟩
  | error e =>
      cases e with
      | fatal cause => exact ⟨trivial, settled_self c, fun _ => trivial⟩
      | recursionLimit limit => exact ⟨trivial, deep limit⟩
      | _ => exact ⟨trivial, Orderly.unwatched true env (Action.warnError "PaintType" _) c⟩

theorem orderly_expandPattern (area : Path K) (rule : FillRule) :
    Orderly false env c (expandPattern (σ := σ) area rule) := by
  refine .environment (.state ?_)
  split
  · exact .pure ()
  · refine .bind (.modify rfl rfl) fun _ _ => .bind (.updateState _) fun _ _ => ?_
    exact .andFinally (orderly_paintCell _ _ _) fun _ => orderly_restoreState

theorem orderly_expandFill (painting : Painting) (path : Path K) :
    Orderly false env c (expandFill (σ := σ) painting path) := by
  rw [expandFill]
  split
  · exact orderly_expandPattern _ _
  · exact .pure ()

theorem orderly_finishPath (painting : Painting) (call : Call K) :
    Orderly false env c (finishPath (σ := σ) painting call) := by
  refine .bind (.context (.bind (.modify rfl rfl) fun _ _ => .pure _)) fun (path, clip) c => ?_
  dsimp only
  split
  · exact .pure ()
  have plain : (painting.event path c.state : Event K σ).IsPlain := by
    cases painting <;> trivial
  refine .state (.bind (.emit plain) fun _ c => ?_)
  cases clip with
  | none => exact orderly_expandFill painting path
  | some rule =>
      refine .bind ?_ fun _ _ => orderly_expandFill painting path
      exact .bind (.emit trivial) fun _ _ => .updateState _

omit [Scalar K] in
theorem orderly_paintShading (call : Call K) :
    Orderly remarks env c (paintShading (σ := σ) call) :=
  .read (call.argument_read 0 _ _) fun _ => .environment <|
    .read (argument_require _ _ _) fun _ => .state (.emit trivial)

/-! ### Colours -/

theorem orderly_selectSpace (target : PaintTarget) (call : Call K) :
    Orderly remarks env c (selectSpace (σ := σ) target call) :=
  .read (call.argument_read 0 _ _) fun _ => .environment <|
    .read (argument_require _ _ _) fun _ => .updateState _

theorem orderly_selectColor (target : PaintTarget) (patterns : Bool) (call : Call K) :
    Orderly remarks env c (selectColor (σ := σ) target patterns call) :=
  .state (.read (argument_selectedColor _ _ _) fun _ => .updateState _)

end Operators

end PdfContent
