import PdfContent.Proofs.Agreement

/-!
# Operators that both tables carry out

Each of them goes alike from states that are alike for text: what it reads of the state is the same,
and what it changes stays alike. Forms pass this on to their content, since the state that a form
starts with is alike again.
-/

namespace PdfContent.Operators

open PdfContent.Action (Agrees)

variable {K σ α : Type} [Scalar K]

/-- An action that goes alike with itself. -/
def PlacesAlike (x : Action K σ Unit) : Prop := Agrees (fun _ _ => True) x x

theorem placesAlike_save (call : Call K) : PlacesAlike (save (σ := σ) call) :=
  .modify fun _ _ alike => alike.save

theorem placesAlike_restore (call : Call K) : PlacesAlike (restore (σ := σ) call) := by
  refine .context fun c d alike => ?_
  have saved := alike.saved
  cases hc : c.states.saved with
  | nil =>
      have hd : d.states.saved = [] := by simpa [hc] using saved.symm
      simp only [StateStack.restore?, hc, hd]
      exact .throw _
  | cons s rest =>
      cases hd : d.states.saved with
      | nil => simp [hc, hd] at saved
      | cons t rest' =>
          simp only [hc, hd, List.map_cons, List.cons.injEq] at saved
          simp only [StateStack.restore?, hc, hd]
          exact .modify fun _ _ alike => .of_parts saved.1 saved.2 alike.text alike.compatibility

/-- A setter whose changes to what text depends on are determined by what text depends on. -/
theorem placesAlike_setter
    {change : Call K → Except OperatorError (GraphicsState K σ → GraphicsState K σ)} (call : Call K)
    (textual : ∀ f, change call = .ok f → ∀ s, (f s).forText = (f s.forText).forText) :
    PlacesAlike (Action.ofExcept (change call) >>= fun f => Action.updateState f) :=
  .read fun f given => .updateState (textual f given)

theorem placesAlike_setParameters (call : Call K) : PlacesAlike (setParameters (σ := σ) call) := by
  refine .read fun name _ => .environment fun env env' surroundings => ?_
  rw [surroundings.resolver, surroundings.scope]
  exact .read fun parameters _ => .updateState fun _ => rfl

theorem agrees_textObject (keyword : String) :
    Agrees Eq (textObject (σ := σ) keyword : Action K σ (TextObject K)) (textObject keyword) := by
  refine .context fun c d alike => ?_
  rw [alike.text]
  split
  · exact .pure rfl
  · exact .throw _

theorem placesAlike_updateTextObject (keyword : String) (f : TextObject K → TextObject K) :
    PlacesAlike (updateTextObject (σ := σ) keyword f) := by
  refine (agrees_textObject keyword).bind ?_
  rintro object _ rfl
  exact .modify fun _ _ alike => alike.setText _

theorem placesAlike_beginText (call : Call K) : PlacesAlike (beginText (σ := σ) call) :=
  .next (.modify fun _ _ alike => alike.setText _) (.emit rfl)

theorem placesAlike_endText (call : Call K) : PlacesAlike (endText (σ := σ) call) := by
  refine (agrees_textObject call.keyword).bind ?_
  rintro _ _ rfl
  exact .next (.modify fun _ _ alike => alike.setText _) (.emit rfl)

theorem placesAlike_setFont (call : Call K) : PlacesAlike (setFont (σ := σ) call) := by
  refine .read fun name _ => .read fun size _ => .environment fun env env' surroundings => ?_
  rw [surroundings.resolver, surroundings.scope]
  have select : PlacesAlike (do
      Action.updateText fun t =>
        { t with
          font := some ((env'.resolver.font env'.scope name).getD Font.fallback)
          fontName := some name
          fontSize := size }
      if (env'.resolver.font env'.scope name).isNone then
        throw (OperatorError.missingResource .font name) : Action K σ Unit) := by
    refine .next (.updateState fun _ => rfl) ?_
    split
    · exact .throw _
    · exact .pure trivial
  dsimp only
  split
  · exact .next (.warnAt _ _ _) select
  · exact select

theorem placesAlike_moveText (call : Call K) : PlacesAlike (moveText (σ := σ) call) :=
  .read fun _ _ => .read fun _ _ => placesAlike_updateTextObject _ _

theorem placesAlike_setTextMatrix (call : Call K) : PlacesAlike (setTextMatrix (σ := σ) call) :=
  .read fun _ _ => placesAlike_updateTextObject _ _

theorem placesAlike_nextLine (call : Call K) : PlacesAlike (nextLine (σ := σ) call) := by
  refine .state fun s t alike => ?_
  rw [alike.text]
  exact placesAlike_updateTextObject _ _

/-- Glyphs are shown without being drawn. -/
theorem placesAlike_showGlyph (keyword : String) (glyph : GlyphEvent K σ) :
    PlacesAlike (showGlyph keyword glyph) := by
  refine .state fun s t _ => .next (.emit rfl) (.environment fun env env' surroundings => ?_)
  have undrawn (env : Environment K σ) (silent : env.DrawsNoGlyph) :
      (decide (env.receiver = .device) && decide (glyph.font.kind = .type3) &&
        env.options.runGlyphProcedures) = false := by
    rcases silent with h | h <;> simp [h]
  simp only [undrawn env surroundings.first, undrawn env' surroundings.second, Bool.false_eq_true,
    if_false]
  exact .pure trivial

theorem placesAlike_showCodes (keyword : String) (font : Font K σ) (codes : List (UInt32 × Bytes)) :
    PlacesAlike (showCodes keyword font codes) := by
  induction codes with
  | nil => exact .pure trivial
  | cons code rest ih =>
      refine (agrees_textObject keyword).bind ?_
      rintro object _ rfl
      refine .state fun s t alike => ?_
      have same : glyphEvent font s object code.1 code.2 =
        glyphEvent font t object code.1 code.2 := by
        simp only [glyphEvent, alike.text, alike.ctm]
      rw [same]
      exact .next (placesAlike_showGlyph _ _) (.next (placesAlike_updateTextObject _ _) ih)

theorem placesAlike_showString (keyword : String) (bytes : Bytes) :
    PlacesAlike (showString (σ := σ) (K := K) keyword bytes) := by
  refine (agrees_textObject keyword).bind ?_
  rintro _ _ rfl
  refine .state fun s t alike => ?_
  rw [alike.text]
  split
  · exact placesAlike_showCodes _ _ _
  · exact .next (.warnAt _ _ _) (placesAlike_showCodes _ _ _)

theorem placesAlike_showText (call : Call K) : PlacesAlike (showText (σ := σ) call) :=
  .read fun _ _ => placesAlike_showString _ _

theorem placesAlike_showElements (call : Call K) (index : Nat) (items : List (Operand K)) :
    PlacesAlike (showElements (σ := σ) call index items) := by
  have adjust (amount : K) : PlacesAlike (showElements.adjust (σ := σ) call amount) := by
    refine .state fun s t alike => ?_
    rw [alike.text]
    exact placesAlike_updateTextObject _ _
  induction items generalizing index with
  | nil => exact .pure trivial
  | cons v rest ih =>
      unfold showElements
      cases v with
      | literal bytes => exact .next (placesAlike_showString _ _) (ih _)
      | hexadecimal bytes => exact .next (placesAlike_showString _ _) (ih _)
      | integer i => exact .next (adjust _) (ih _)
      | real x => exact .next (adjust _) (ih _)
      | _ => exact .next (.throw _) (ih _)

theorem placesAlike_showTextAdjusted (call : Call K) :
    PlacesAlike (showTextAdjusted (σ := σ) call) := by
  refine .read fun items _ => (agrees_textObject call.keyword).bind ?_
  rintro _ _ rfl
  exact placesAlike_showElements _ _ _

theorem placesAlike_beginMarked (call : Call K) : PlacesAlike (beginMarked (σ := σ) call) :=
  .read fun _ _ => .emit rfl

theorem placesAlike_markPoint (call : Call K) : PlacesAlike (markPoint (σ := σ) call) :=
  .read fun _ _ => .emit rfl

theorem placesAlike_beginMarkedWithProperties (call : Call K) :
    PlacesAlike (beginMarkedWithProperties (σ := σ) call) := by
  refine .read fun tag _ => .environment fun env env' surroundings => ?_
  simp only [propertyList, surroundings.resolver, surroundings.scope]
  split
  · exact .emit rfl
  · exact .next (.emit rfl) (.throw _)

theorem placesAlike_markPointWithProperties (call : Call K) :
    PlacesAlike (markPointWithProperties (σ := σ) call) := by
  refine .read fun tag _ => .environment fun env env' surroundings => ?_
  simp only [propertyList, surroundings.resolver, surroundings.scope]
  exact .read fun _ _ => .emit rfl

theorem placesAlike_changeCompatibility (f : Nat → Nat) :
    PlacesAlike (Action.modify fun c : Context K σ =>
      { c with compatibility := f c.compatibility }) :=
  .modify fun _ _ alike => .of_parts alike.state alike.saved alike.text
    (congrArg f alike.compatibility)

/-- A form starts from alike states where its caller is in alike states. -/
theorem placesAlike_showForm (name : String) (form : Form K σ) :
    PlacesAlike (showForm name form) := by
  refine .next .checkDepth (.environment fun env env' surroundings => .state fun s t alike => ?_)
  refine .next (.emit rfl) ?_
  rw [surroundings.scope]
  exact .andFinally (.nested _ _ fun _ => rfl) (.emit rfl)

theorem placesAlike_invoke (call : Call K) : PlacesAlike (invoke (σ := σ) call) := by
  refine .read fun name _ => .environment fun env env' surroundings => ?_
  rw [surroundings.resolver, surroundings.scope]
  refine .read fun object _ => ?_
  cases object with
  | form form => exact placesAlike_showForm name form
  | image image => exact .state fun _ _ _ => .emit rfl
  | postScript => exact .pure trivial

/-- The action of an entry, if it has one of its own, goes alike with itself. -/
def AlikeEntry (e : TableEntry K (Action K σ)) : Prop :=
  match e.handler with
  | .action run => ∀ call, PlacesAlike (run call)
  | .sequence _ => True

/-- A change of the graphics state that operands determine, and that keeps alike states alike. -/
def Textual (change : Except OperatorError (GraphicsState K σ → GraphicsState K σ)) : Prop :=
  ∀ f, change = .ok f → ∀ s, (f s).forText = (f s.forText).forText

theorem textual_bind {x : Except OperatorError α}
    {f : α → Except OperatorError (GraphicsState K σ → GraphicsState K σ)}
    (each : ∀ a, Textual (f a)) : Textual (x >>= f) := by
  intro change given
  obtain ⟨a, _, made⟩ := exists_of_bind_ok given
  exact each a change made

theorem textual_ok {f : GraphicsState K σ → GraphicsState K σ}
    (textual : ∀ s, (f s).forText = (f s.forText).forText) : Textual (.ok f) := by
  rintro _ ⟨⟩
  exact textual

theorem textual_error (e : OperatorError) : Textual (K := K) (σ := σ) (.error e) := by
  rintro _ ⟨⟩

theorem textual_concatMatrix (call : Call K) : Textual (concatMatrix (σ := σ) call) :=
  textual_bind fun _ => textual_ok fun _ => rfl

theorem textual_setLineCap (call : Call K) : Textual (setLineCap (σ := σ) call) :=
  textual_bind fun value => by
    split
    · exact textual_ok fun _ => rfl
    · exact textual_error _

theorem textual_setLineJoin (call : Call K) : Textual (setLineJoin (σ := σ) call) :=
  textual_bind fun value => by
    split
    · exact textual_ok fun _ => rfl
    · exact textual_error _

theorem textual_setRenderMode (call : Call K) : Textual (setRenderMode (σ := σ) call) :=
  textual_bind fun value => by
    split
    · exact textual_ok fun _ => rfl
    · exact textual_error _

theorem textual_setDash (call : Call K) : Textual (setDash (σ := σ) call) :=
  textual_bind fun _ => textual_bind fun _ => textual_bind fun _ => textual_ok fun _ => rfl

/-- An entry that changes one parameter to a number. -/
theorem textual_parameter (read : Except OperatorError α)
    (set : α → GraphicsState K σ → GraphicsState K σ)
    (textual : ∀ a s, (set a s).forText = (set a s.forText).forText) :
    Textual (do let a ← read; return set a) :=
  textual_bind fun a => textual_ok (textual a)

theorem alikeEntry_setter {keyword : String} {minOperands : Nat}
    {change : Call K → Except OperatorError (GraphicsState K σ → GraphicsState K σ)}
    (textual : ∀ call, Textual (change call)) : AlikeEntry (setter keyword minOperands change) :=
  fun call => placesAlike_setter call (textual call)

theorem alikeEntry_textSetter (keyword : String) (set : K → TextState K σ → TextState K σ) :
    AlikeEntry (textSetter keyword set) :=
  alikeEntry_setter fun call => textual_parameter (call.number 0)
    (fun x s => { s with text := set x s.text }) fun _ _ => rfl

theorem alikeEntry_action {keyword : String} {minOperands : Nat} {run : Call K → Action K σ Unit}
    (alike : ∀ call, PlacesAlike (run call)) : AlikeEntry (entry keyword minOperands run) := alike

theorem alikeEntry_compound (keyword : String) (minOperands : Nat)
    (steps : Call K → Except OperatorError (List (String × List (Operand K)))) :
    AlikeEntry (compound (σ := σ) keyword minOperands steps) := trivial

theorem alikeEntry_ignored (keyword : String) (minOperands : Nat) :
    AlikeEntry (ignored (K := K) (σ := σ) keyword minOperands) := fun _ => .pure trivial

theorem alikeEntry_stateEntries : ∀ e ∈ stateEntries (K := K) (σ := σ), AlikeEntry e := by
  have number (set : K → GraphicsState K σ → GraphicsState K σ)
      (textual : ∀ x s, (set x s).forText = (set x s.forText).forText) (call : Call K) :
      Textual (do let x ← call.number 0; return set x) :=
    textual_parameter (call.number 0) set textual
  simp only [stateEntries, List.forall_mem_cons, List.not_mem_nil, false_implies, implies_true,
    and_true]
  refine ⟨alikeEntry_action placesAlike_save, alikeEntry_action placesAlike_restore,
    alikeEntry_setter textual_concatMatrix, alikeEntry_action placesAlike_setParameters,
    alikeEntry_setter (number (fun x s => { s with lineWidth := x }) fun _ _ => rfl),
    alikeEntry_setter textual_setLineCap, alikeEntry_setter textual_setLineJoin,
    alikeEntry_setter (number (fun x s => { s with miterLimit := x }) fun _ _ => rfl),
    alikeEntry_setter textual_setDash, alikeEntry_setter fun call => ?_,
    alikeEntry_setter (number (fun x s => { s with flatness := x }) fun _ _ => rfl)⟩
  exact textual_parameter (call.name 0) (fun name s => { s with renderingIntent := .ofName name })
    fun _ _ => rfl

theorem alikeEntry_textStateEntries : ∀ e ∈ textStateEntries (K := K) (σ := σ), AlikeEntry e := by
  simp only [textStateEntries, List.forall_mem_cons, List.not_mem_nil, false_implies, implies_true,
    and_true, alikeEntry_textSetter, alikeEntry_compound, true_and]
  exact ⟨alikeEntry_action placesAlike_beginText, alikeEntry_action placesAlike_endText,
    alikeEntry_action placesAlike_setFont, alikeEntry_setter textual_setRenderMode,
    alikeEntry_action placesAlike_moveText, alikeEntry_action placesAlike_setTextMatrix,
    alikeEntry_action placesAlike_nextLine⟩

theorem alikeEntry_textShowingEntries :
    ∀ e ∈ textShowingEntries (K := K) (σ := σ), AlikeEntry e := by
  simp only [textShowingEntries, List.forall_mem_cons, List.not_mem_nil, false_implies,
    implies_true, and_true, alikeEntry_compound, alikeEntry_ignored]
  exact ⟨alikeEntry_action placesAlike_showText, alikeEntry_action placesAlike_showTextAdjusted⟩

theorem alikeEntry_markedEntries : ∀ e ∈ markedEntries (K := K) (σ := σ), AlikeEntry e := by
  simp only [markedEntries, List.forall_mem_cons, List.not_mem_nil, false_implies, implies_true,
    and_true]
  exact ⟨alikeEntry_action placesAlike_beginMarked,
    alikeEntry_action placesAlike_beginMarkedWithProperties,
    alikeEntry_action fun _ => .emit rfl, alikeEntry_action placesAlike_markPoint,
    alikeEntry_action placesAlike_markPointWithProperties,
    alikeEntry_action fun _ => placesAlike_changeCompatibility (· + 1),
    alikeEntry_action fun _ => placesAlike_changeCompatibility (· - 1)⟩

/-- The operators that both tables carry out go alike in both. -/
theorem alikeEntry_sharedEntries : ∀ e ∈ sharedEntries (K := K) (σ := σ), AlikeEntry e := by
  simp only [sharedEntries, List.forall_mem_append]
  refine ⟨⟨⟨⟨alikeEntry_stateEntries, alikeEntry_textStateEntries⟩, alikeEntry_textShowingEntries⟩,
    alikeEntry_markedEntries⟩, ?_⟩
  simpa only [formEntries, List.forall_mem_singleton] using alikeEntry_action placesAlike_invoke

end PdfContent.Operators
