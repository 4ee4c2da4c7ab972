import PdfContent.Proofs.Lookup
import PdfContent.Proofs.Painting

/-!
# What the built-in operators do

`Move` lists all changes that a built-in operator makes to the context, and `Opens` all nested
streams that it has run: the content of a form, of the cell of a tiling pattern, and of the
procedure of a glyph in the selected font. What can be said about these holds of every operator, so
that a fact about all operators of both tables is proved by going through the two lists and not
through the operators.

A nested stream gives the context back as it was. That is why the font that a string is shown in is
still the selected one at each of its glyphs, and why the state that was saved for a pattern cell is
still saved after it.
-/

namespace PdfContent

variable {K σ α : Type} [Scalar K]

/-- The fonts that can be selected in a scope. -/
inductive Resolver.Offers (resolver : Resolver K σ) (scope : σ) : Font K σ → Prop
  | fallback : Offers resolver scope Font.fallback
  | named {name font} (found : resolver.font scope name = some font) : Offers resolver scope font
  | parameters {name parameters font size}
    (found : resolver.stateParameters scope name = some parameters)
    (given : parameters.font = some (font, size)) : Offers resolver scope font

namespace Operators

open PdfContent.Action (Behaves)

/-- Parameters are changed, but not the clip, and no font is selected that the resources do not
offer. -/
structure Tunes (env : Environment K σ) (s t : GraphicsState K σ) : Prop where
  clip : t.clip = s.clip
  font : t.text.font = s.text.font ∨
    ∃ font, env.resolver.Offers env.scope font ∧ t.text.font = some font

/-- The changes that built-in operators make. -/
inductive Move (env : Environment K σ) : Context K σ → Context K σ → Prop
  | paint {c c'} (move : PaintMove c c') : Move env c c'
  | save (c) : Move env c { c with states := c.states.save }
  | restore (c) {states} (saved : c.states.restore? = some states) : Move env c { c with states }
  | tune (c) {f} (tunes : Tunes env c.state (f c.state)) : Move env c (c.updateState f)
  | text (c) (text : Option (TextObject K)) : Move env c { c with text }
  | compatibility (c) (compatibility : Nat) : Move env c { c with compatibility }

/-- The nested streams that built-in operators have run. -/
inductive Opens (env : Environment K σ) (c : Context K σ) :
    Bytes → σ → (GraphicsState K σ → GraphicsState K σ) → Prop
  | form {name form} (found : env.resolver.xobject env.scope name = some (.form form)) :
    Opens env c form.content (form.scope.getD env.scope) (enterForm form)
  | cell {name pattern} (paint : Option (ColorSpace × Color K))
    (found : env.resolver.pattern env.scope name = some (.tiling pattern)) :
    Opens env c pattern.content (pattern.scope.getD env.scope)
      (enterCell pattern (pattern.matrix.concat env.baseMatrix) paint)
  | glyph {font code procedure} (ctm : Matrix K) (selected : c.state.text.font = some font)
    (found : font.procedure? code = some procedure) :
    Opens env c procedure.content (procedure.scope.getD env.scope) fun s => { s with ctm }

/-- How built-in operators behave. They may tell anything and fail by any error. -/
def standardManner (env : Environment K σ) : Manner K σ where
  moves := Move env
  tells _ := True
  opens := Opens env
  fails _ := True
  tells_warning _ := trivial
  fails_local _ _ := trivial

/-- An action does what built-in operators do. -/
def Operates (env : Environment K σ) (c : Context K σ) (x : Action K σ Unit) : Prop :=
  x.Behaves (standardManner env) env c fun _ _ => True

theorem paintManner_le (env : Environment K σ) : paintManner.Le (standardManner env) where
  moves _ _ := .paint
  tells _ _ := trivial
  opens _ _ _ _ := False.elim
  fails _ _ := trivial

variable {env : Environment K σ} {c : Context K σ}

theorem operates_warnAt (keyword : String) (code : WarningCode) (description : String) :
    Operates env c (Action.warnAt keyword code description) :=
  .warnAt trivial

theorem operates_emit (e : Event K σ) : Operates env c (Action.emit e) := .emit trivial trivial

/-! ### The graphics state -/

theorem operates_save (call : Call K) : Operates env c (save call) := .modify (.save c) trivial

theorem operates_restore (call : Call K) : Operates env c (restore call) := by
  refine .context ?_
  cases saved : c.states.restore? with
  | some states => exact .modify (.restore c saved) trivial
  | none => exact .fail rfl trivial

/-- A change that operands determine: it is a matter of parameters, and if there is none, the error
is the operator's own. -/
structure Setting (env : Environment K σ)
    (change : Except OperatorError (GraphicsState K σ → GraphicsState K σ)) : Prop where
  isLocal : LocalResult change
  tunes : ∀ f, change = .ok f → ∀ s, Tunes env s (f s)

namespace Setting

theorem bind {x : Except OperatorError α}
    {f : α → Except OperatorError (GraphicsState K σ → GraphicsState K σ)} (first : LocalResult x)
    (each : ∀ a, Setting env (f a)) : Setting env (x >>= f) where
  isLocal := first.bind fun a => (each a).isLocal
  tunes change given := by
    obtain ⟨a, _, made⟩ := exists_of_bind_ok given
    exact (each a).tunes change made

theorem ok {f : GraphicsState K σ → GraphicsState K σ} (tunes : ∀ s, Tunes env s (f s)) :
    Setting env (.ok f) where
  isLocal := .ok f
  tunes := by
    rintro _ ⟨⟩
    exact tunes

theorem error {e : OperatorError} (isLocal : e.IsLocal) :
    Setting (K := K) (σ := σ) env (.error e) where
  isLocal := .error isLocal
  tunes := by rintro _ ⟨⟩

/-- A parameter that is read and set. -/
theorem parameter {read : Except OperatorError α} (set : α → GraphicsState K σ → GraphicsState K σ)
    (isLocal : LocalResult read) (tunes : ∀ a s, Tunes env s (set a s)) :
    Setting env (do let a ← read; return set a) :=
  bind isLocal fun a => ok (tunes a)

theorem operates {change : Except OperatorError (GraphicsState K σ → GraphicsState K σ)}
    (setting : Setting env change) :
    Operates env c (Action.ofExcept change >>= fun f => Action.updateState f) :=
  .read setting.isLocal fun f given => .modify (.tune c (setting.tunes f given c.state)) trivial

end Setting

theorem setting_concatMatrix (call : Call K) : Setting env (concatMatrix (σ := σ) call) :=
  .parameter (fun m s => s.concat m) call.localResult_matrix fun _ _ => ⟨rfl, .inl rfl⟩

theorem setting_setLineCap (call : Call K) : Setting env (setLineCap (σ := σ) call) :=
  .bind (call.localResult_integer 0) fun value => by
    split
    · exact .ok fun _ => ⟨rfl, .inl rfl⟩
    · exact .error trivial

theorem setting_setLineJoin (call : Call K) : Setting env (setLineJoin (σ := σ) call) :=
  .bind (call.localResult_integer 0) fun value => by
    split
    · exact .ok fun _ => ⟨rfl, .inl rfl⟩
    · exact .error trivial

theorem localResult_dashLengths (call : Call K) (items : List (Operand K)) :
    LocalResult (dashLengths call items) :=
  (argument_dashLengths call items).isLocal

theorem setting_setDash (call : Call K) : Setting env (setDash (σ := σ) call) :=
  .bind (call.localResult_array 0) fun items => .bind (call.localResult_number 1) fun _ =>
    .bind (localResult_dashLengths call items) fun _ => .ok fun _ => ⟨rfl, .inl rfl⟩

theorem setting_setRenderMode (call : Call K) : Setting env (setRenderMode (σ := σ) call) :=
  .bind (call.localResult_integer 0) fun value => by
    split
    · exact .ok fun _ => ⟨rfl, .inl rfl⟩
    · exact .error trivial

theorem operates_setParameters (call : Call K) : Operates env c (setParameters call) := by
  refine .read (call.localResult_name 0) fun name _ => .environment ?_
  refine .read (localResult_require _ _ _) fun parameters given =>
    .modify (.tune c ⟨rfl, ?_⟩) trivial
  have found : env.resolver.stateParameters env.scope name = some parameters := by
    cases h : env.resolver.stateParameters env.scope name <;> simp_all [require]
  cases font : parameters.font with
  | none => exact .inl (by simp only [GraphicsState.applyParameters, font])
  | some selected =>
      refine .inr ⟨selected.1, .parameters found font, ?_⟩
      simp only [GraphicsState.applyParameters, font]

/-! ### Text -/

/-- Asking for the text object changes nothing. -/
theorem behaves_textObject (keyword : String) :
    (textObject (σ := σ) keyword : Action K σ (TextObject K)).Behaves (standardManner env) env c
      fun _ c' => c' = c := by
  refine .context ?_
  cases c.text with
  | some object => exact .pure rfl
  | none => exact .throw trivial

/-- Moving within a text object keeps the graphics state, and so the selected font. -/
theorem behaves_updateTextObject (keyword : String) (f : TextObject K → TextObject K) :
    (updateTextObject (σ := σ) keyword f).Behaves (standardManner env) env c
      fun _ c' => c'.state = c.state := by
  refine (behaves_textObject keyword).bind ?_
  rintro object _ rfl
  exact .modify (.text _ _) rfl

theorem operates_updateTextObject (keyword : String) (f : TextObject K → TextObject K) :
    Operates env c (updateTextObject keyword f) :=
  (behaves_updateTextObject keyword f).mono fun _ _ _ => trivial

theorem operates_beginText (call : Call K) : Operates env c (beginText call) :=
  .next (.modify (.text c _) trivial) fun _ => operates_emit _

theorem operates_endText (call : Call K) : Operates env c (endText call) :=
  (behaves_textObject call.keyword).bind fun _ c' _ =>
    .next (.modify (.text c' _) trivial) fun _ => operates_emit _

theorem operates_setFont (call : Call K) : Operates env c (setFont call) := by
  refine .read (call.localResult_name 0) fun name _ =>
    .read (call.localResult_number 1) fun size _ =>
    .environment ?_
  have offered : env.resolver.Offers env.scope
      ((env.resolver.font env.scope name).getD Font.fallback) := by
    cases found : env.resolver.font env.scope name with
    | none => exact .fallback
    | some font => exact .named found
  have select (c : Context K σ) : Operates env c (do
      Action.updateText fun t =>
        { t with
          font := some ((env.resolver.font env.scope name).getD Font.fallback)
          fontName := some name
          fontSize := size }
      if (env.resolver.font env.scope name).isNone then
        throw (OperatorError.missingResource .font name)) := by
    refine .next (.modify (.tune c ⟨rfl, .inr ⟨_, offered, rfl⟩⟩) trivial) fun _ => ?_
    split
    · exact .throw trivial
    · exact .pure trivial
  dsimp only
  split
  · exact .next (operates_warnAt _ _ _) select
  · exact select c

theorem operates_moveText (call : Call K) : Operates env c (moveText call) :=
  .read (call.localResult_number 0) fun _ _ => .read (call.localResult_number 1) fun _ _ =>
    operates_updateTextObject _ _

theorem operates_setTextMatrix (call : Call K) : Operates env c (setTextMatrix call) :=
  .read call.localResult_matrix fun _ _ => operates_updateTextObject _ _

theorem operates_nextLine (call : Call K) : Operates env c (nextLine call) :=
  .state (operates_updateTextObject _ _)

/-- A glyph is drawn in the context that it is shown in, which its procedure gives back. -/
theorem behaves_showGlyph (keyword : String) (glyph : GlyphEvent K σ)
    (drawable : ∀ procedure, glyph.font.procedure? glyph.code = some procedure →
      c.state.text.font = some glyph.font) :
    (showGlyph keyword glyph).Behaves (standardManner env) env c fun _ c' => c' = c := by
  refine .state (.bind (R := fun _ c' => c' = c) (.emit trivial rfl) ?_)
  rintro _ _ rfl
  refine .environment ?_
  split
  · cases found : glyph.font.procedure? glyph.code with
    | none => exact .pure rfl
    | some procedure =>
        refine .nestedHandle (.glyph _ (drawable procedure found) found) rfl (fun _ => rfl) ?_
        intro e noFault
        cases e with
        | fatal cause => cases noFault
        | _ => exact .warnError rfl
  · exact .pure rfl

theorem operates_showCodes (keyword : String) (font : Font K σ) (codes : List (UInt32 × Bytes))
    (drawable : ∀ code procedure, font.procedure? code = some procedure →
      c.state.text.font = some font) :
    Operates env c (showCodes keyword font codes) := by
  induction codes generalizing c with
  | nil => exact .pure trivial
  | cons code rest ih =>
      refine (behaves_textObject keyword).bind ?_
      rintro object _ rfl
      refine .state (.bind (behaves_showGlyph keyword _ (drawable code.1)) ?_)
      rintro _ _ rfl
      refine (behaves_updateTextObject keyword _).bind fun _ c' same => ?_
      exact ih fun code procedure found => same ▸ drawable code procedure found

theorem operates_showString (keyword : String) (bytes : Bytes) :
    Operates env c (showString keyword bytes) := by
  refine (behaves_textObject keyword).bind ?_
  rintro _ _ rfl
  refine .state ?_
  split
  next font selected => exact operates_showCodes _ _ _ fun _ _ _ => selected
  · refine .next (operates_warnAt _ _ _) fun _ => operates_showCodes _ _ _ ?_
    intro code procedure found
    cases found

theorem operates_showText (call : Call K) : Operates env c (showText call) :=
  .read (call.localResult_string 0) fun _ _ => operates_showString _ _

theorem operates_showElements (call : Call K) (index : Nat) (items : List (Operand K)) :
    Operates env c (showElements call index items) := by
  have adjust (c : Context K σ) (amount : K) : Operates env c (showElements.adjust call amount) :=
    .state (operates_updateTextObject _ _)
  induction items generalizing index c with
  | nil => exact .pure trivial
  | cons v rest ih =>
      unfold showElements
      cases v with
      | literal bytes => exact .next (operates_showString _ _) fun _ => ih _
      | hexadecimal bytes => exact .next (operates_showString _ _) fun _ => ih _
      | integer i => exact .next (adjust c _) fun _ => ih _
      | real x => exact .next (adjust c _) fun _ => ih _
      | _ => exact .next (.throw trivial) fun _ => ih _

theorem operates_showTextAdjusted (call : Call K) : Operates env c (showTextAdjusted call) :=
  .read (call.localResult_array 0) fun _ _ => (behaves_textObject call.keyword).bind fun _ _ _ =>
    operates_showElements _ _ _

/-! ### Marked content, forms and pattern cells -/

omit [Scalar K] in
theorem localResult_propertyList (env : Environment K σ) (call : Call K) :
    LocalResult (propertyList env call) :=
  (argument_propertyList env call).isLocal

theorem operates_beginMarked (call : Call K) : Operates env c (beginMarked call) :=
  .read (call.localResult_name 0) fun _ _ => operates_emit _

theorem operates_beginMarkedWithProperties (call : Call K) :
    Operates env c (beginMarkedWithProperties call) := by
  refine .read (call.localResult_name 0) fun tag _ => .environment ?_
  cases given : propertyList env call with
  | ok properties => exact operates_emit _
  | error e =>
      refine .next (operates_emit _) fun _ => ?_
      exact .throw (localResult_propertyList env call e given)

theorem operates_markPoint (call : Call K) : Operates env c (markPoint call) :=
  .read (call.localResult_name 0) fun _ _ => operates_emit _

theorem operates_markPointWithProperties (call : Call K) :
    Operates env c (markPointWithProperties call) :=
  .read (call.localResult_name 0) fun _ _ => .environment
    (.read (localResult_propertyList env call) fun _ _ => operates_emit _)

theorem operates_showForm (name : String) (form : Form K σ) {found : String}
    (supplied : env.resolver.xobject env.scope found = some (.form form)) :
    Operates env c (showForm name form) := by
  have settles : (showForm name form).Settles (standardManner env) env c :=
    .checkDepth (fun _ => trivial) (.environment (.state
      (.between (.form supplied) (fun _ => trivial) fun _ => trivial)))
  exact settles.behaves.mono fun _ _ _ => trivial

theorem operates_invoke (call : Call K) : Operates env c (invoke call) := by
  refine .read (call.localResult_name 0) fun name _ => .environment ?_
  refine .read (localResult_require _ _ _) fun object given => ?_
  have found : env.resolver.xobject env.scope name = some object := by
    cases h : env.resolver.xobject env.scope name <;> simp_all [require]
  cases object with
  | form form => exact operates_showForm name form found
  | image image => exact .state (operates_emit _)
  | postScript => exact .pure trivial

/-- Painting a cell leaves the context as it was, in every manner that allows for the cell. -/
theorem settles_paintCell {manner : Manner K σ} (name : String) (pattern : TilingPattern K σ)
    (paint : Option (ColorSpace × Color K))
    (opens : manner.opens c pattern.content (pattern.scope.getD env.scope)
      (enterCell pattern (pattern.matrix.concat env.baseMatrix) paint))
    (tells : ∀ e, manner.tells e) (fails : ∀ e, manner.fails e) :
    (paintCell name pattern paint).Settles manner env c :=
  .checkDepth fails (.environment (.between opens tells fails))

omit [Scalar K] in
/-- A cell that is to be expanded is one of the resources. -/
theorem pattern_of_selectedCell? {s : GraphicsState K σ} {name : String}
    {pattern : TilingPattern K σ} (selected : selectedCell? env s = some (name, pattern)) :
    env.resolver.pattern env.scope name = some (.tiling pattern) := by
  rw [selectedCell?] at selected
  split at selected
  · split at selected
    · cases selected
    · split at selected
      next found =>
        cases selected
        exact found
      · cases selected
  · cases selected

/-- The state that is saved for a cell is there to be restored after it, whatever has become of the
cell. -/
theorem operates_expandPattern (area : Path K) (rule : FillRule) :
    Operates env c (expandPattern area rule) := by
  refine .environment (.state ?_)
  cases selected : selectedCell? env c.state with
  | none => exact .pure trivial
  | some cell =>
      have supplied := pattern_of_selectedCell? selected
      let clipped : Context K σ :=
        ({ c with states := c.states.save } : Context K σ).updateState fun s =>
          s.intersectClip area rule
      refine .bind (R := fun _ c' => c' = { c with states := c.states.save })
        (.modify (.save c) rfl) ?_
      rintro _ _ rfl
      refine .bind (R := fun _ c' => c' = clipped) (.modify (.paint (.clip _ area rule)) rfl) ?_
      rintro _ _ rfl
      have settles : (paintCell cell.1 cell.2 (cellPaint cell.2 c.state)).Settles
          (standardManner env) env clipped :=
        settles_paintCell _ _ _ (.cell _ supplied) (fun _ => trivial) fun _ => trivial
      refine settles.andFinally fun fault => ?_
      exact ⟨.restore clipped rfl, rfl, trivial⟩

/-! ### The tables -/

theorem follows_action {keyword : String} {minOperands : Nat} {run : Call K → Action K σ Unit}
    (operates : ∀ env c call, Operates env c (run call)) :
    (entry keyword minOperands run).Follows Operates :=
  operates

theorem follows_setter {keyword : String} {minOperands : Nat}
    {change : Call K → Except OperatorError (GraphicsState K σ → GraphicsState K σ)}
    (setting : ∀ env call, Setting env (change call)) :
    (setter keyword minOperands change).Follows Operates :=
  fun env _ call => (setting env call).operates

theorem follows_textSetter (keyword : String) (set : K → TextState K σ → TextState K σ)
    (keeps : ∀ x t, (set x t).font = t.font) : (textSetter keyword set).Follows Operates :=
  follows_setter fun _ call => .parameter (fun x s => { s with text := set x s.text })
    (call.localResult_number 0) fun x s => ⟨rfl, .inl (keeps x s.text)⟩

theorem follows_ignored (keyword : String) (minOperands : Nat) :
    (ignored (K := K) (σ := σ) keyword minOperands).Follows Operates :=
  fun _ _ _ => .pure trivial

theorem operates_stateEntries : ∀ e ∈ stateEntries (K := K) (σ := σ), e.Follows Operates := by
  have number {keyword : String} (set : K → GraphicsState K σ → GraphicsState K σ)
      (tunes : ∀ env x s, Tunes env s (set x s)) :
      (setter keyword 1 fun call => do let x ← call.number 0; return set x).Follows Operates :=
    follows_setter fun env call => .parameter set (call.localResult_number 0) (tunes env)
  simp only [stateEntries, List.forall_mem_cons, List.not_mem_nil, false_implies, implies_true,
    and_true]
  refine ⟨follows_action fun _ _ => operates_save, follows_action fun _ _ => operates_restore,
    follows_setter fun _ => setting_concatMatrix, follows_action fun _ _ => operates_setParameters,
    number (fun x s => { s with lineWidth := x }) fun _ _ _ => ⟨rfl, .inl rfl⟩,
    follows_setter fun _ => setting_setLineCap, follows_setter fun _ => setting_setLineJoin,
    number (fun x s => { s with miterLimit := x }) fun _ _ _ => ⟨rfl, .inl rfl⟩,
    follows_setter fun _ => setting_setDash, follows_setter fun _ call => ?_,
    number (fun x s => { s with flatness := x }) fun _ _ _ => ⟨rfl, .inl rfl⟩⟩
  exact .parameter (fun name s => { s with renderingIntent := .ofName name })
    (call.localResult_name 0) fun _ _ => ⟨rfl, .inl rfl⟩

theorem operates_textStateEntries :
    ∀ e ∈ textStateEntries (K := K) (σ := σ), e.Follows Operates := by
  simp only [textStateEntries, List.forall_mem_cons, List.not_mem_nil, false_implies, implies_true,
    and_true]
  refine ⟨follows_action fun _ _ => operates_beginText, follows_action fun _ _ => operates_endText,
    follows_textSetter _ _ fun _ _ => rfl, follows_textSetter _ _ fun _ _ => rfl,
    follows_textSetter _ _ fun _ _ => rfl, follows_textSetter _ _ fun _ _ => rfl,
    follows_action fun _ _ => operates_setFont, follows_setter fun _ => setting_setRenderMode,
    follows_textSetter _ _ fun _ _ => rfl, follows_action fun _ _ => operates_moveText, ?_,
    follows_action fun _ _ => operates_setTextMatrix, follows_action fun _ _ => operates_nextLine⟩
  intro call
  exact (call.localResult_number 1).bind fun _ => .ok _

theorem operates_textShowingEntries :
    ∀ e ∈ textShowingEntries (K := K) (σ := σ), e.Follows Operates := by
  simp only [textShowingEntries, List.forall_mem_cons, List.not_mem_nil, false_implies,
    implies_true, and_true, follows_ignored]
  exact ⟨follows_action fun _ _ => operates_showText,
    follows_action fun _ _ => operates_showTextAdjusted, fun _ => .ok _, fun _ => .ok _⟩

theorem operates_markedEntries : ∀ e ∈ markedEntries (K := K) (σ := σ), e.Follows Operates := by
  simp only [markedEntries, List.forall_mem_cons, List.not_mem_nil, false_implies, implies_true,
    and_true]
  exact ⟨follows_action fun _ _ => operates_beginMarked,
    follows_action fun _ _ => operates_beginMarkedWithProperties,
    follows_action fun _ _ _ => operates_emit _,
    follows_action fun _ _ => operates_markPoint,
    follows_action fun _ _ => operates_markPointWithProperties,
    follows_action fun _ c _ => .modify (.compatibility c _) trivial,
    follows_action fun _ c _ => .modify (.compatibility c _) trivial⟩

/-- All operators that both tables carry out do what built-in operators do. -/
theorem operates_sharedEntries : ∀ e ∈ sharedEntries (K := K) (σ := σ), e.Follows Operates := by
  simp only [sharedEntries, List.forall_mem_append]
  refine ⟨⟨⟨⟨operates_stateEntries, operates_textStateEntries⟩, operates_textShowingEntries⟩,
    operates_markedEntries⟩, ?_⟩
  simpa only [formEntries, List.forall_mem_singleton] using
    follows_action fun _ _ => operates_invoke

theorem operates_finishPath (painting : Painting) (call : Call K) :
    Operates env c (finishPath painting call) :=
  behaves_finishPath painting call (paintManner_le env) fun _ area rule =>
    operates_expandPattern area rule

/-- All painting operators do what built-in operators do. -/
theorem operates_paintingEntries : ∀ e ∈ paintingEntries (K := K) (σ := σ), e.Follows Operates :=
  follows_paintingEntries (fun env _ _ paints => .of_le (paintManner_le env) paints)
    fun _ _ painting call => operates_finishPath painting call

/-- What carrying out an operator of a table begins with does what built-in operators do if each
entry of the table does. -/
theorem operates_expand {t : ContentTable K σ}
    (follows : ∀ keyword e, t.find? keyword = some e → e.Follows Operates) (env : Environment K σ)
    (c : Context K σ) (call : Call K) : Operates env c (t.expand call).1 :=
  OperatorTable.follows_expand (fun _ _ _ isLocal => .throw isLocal) (fun _ _ => .pure trivial)
    (follows _) env c

/-- Carrying out an operator of a table does what built-in operators do if each entry of the table
does. -/
theorem operates_dispatch {t : ContentTable K σ} (ranked : t.Ranked rank)
    (follows : ∀ keyword e, t.find? keyword = some e → e.Follows Operates) (call : Call K)
    (c : Context K σ) : Operates env c (t.dispatch call) :=
  OperatorTable.behaves_dispatchWithin ranked (P := fun _ => True)
    (fun call _ => ⟨fun c => operates_expand follows env c call, by simp⟩) _ call
    (rank_lt_links call) trivial c

theorem follows_graphicsTable (keyword : String) (e : TableEntry K (Action K σ))
    (found : graphicsTable.find? keyword = some e) : e.Follows Operates := by
  rw [find?_graphicsTable, Option.or_eq_some_iff] at found
  rcases found with painting | ⟨_, shared⟩
  · exact operates_paintingEntries e (OperatorTable.mem_of_find?_ofList painting).1
  · exact operates_sharedEntries e (OperatorTable.mem_of_find?_ofList shared).1

theorem operates_graphicsTable (call : Call K) (c : Context K σ) :
    Operates env c (graphicsTable.dispatch call) :=
  operates_dispatch ranked_graphicsTable follows_graphicsTable call c

theorem operates_textTable (call : Call K) (c : Context K σ) :
    Operates env c (textTable.dispatch call) := by
  refine operates_dispatch ranked_textTable (fun keyword e found => ?_) call c
  rw [find?_textTable, Option.or_eq_some_iff] at found
  rcases found with passed | ⟨_, shared⟩
  · obtain ⟨_, _, rfl⟩ := Option.map_eq_some_iff.mp passed
    exact follows_ignored _ _
  · exact operates_sharedEntries e (OperatorTable.mem_of_find?_ofList shared).1

end Operators

end PdfContent
