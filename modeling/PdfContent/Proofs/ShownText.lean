import PdfContent.Proofs.Running
import PdfContent.Scalar.Whole

/-!
# Which glyphs a string shows

Between the glyphs of a Type 3 font the content that draws them is run, and it may do with the state
what it likes. Since a nested stream gives the state back, the string is shown as if there were no
such content: one glyph for each code, in order, each as far along the line as the codes before it
have moved the text on.

In the log the glyphs that an operator shows itself lie outside of the nested streams. `outside`
picks them out by counting the marks between which nested streams run. The log of a nested stream
is `Hidden` then, which goes by induction on the levels, like everything about nested streams.
-/

namespace PdfContent

variable {K σ α : Type}

namespace Entry

/-- What lies outside of nested streams in a log that begins within a number of them. -/
def outside : Nat → List (Entry K σ) → List (Entry K σ)
  | _, [] => []
  | depth, .opened _ _ :: log => outside (depth + 1) log
  | depth, .closed _ _ :: log => outside (depth - 1) log
  | 0, x :: log => x :: outside 0 log
  | depth + 1, _ :: log => outside (depth + 1) log

/-- The glyphs that are shown outside of nested streams. -/
def ownGlyphs (log : List (Entry K σ)) : List (GlyphEvent K σ) := glyphs (outside 0 log)

/-- A part of a log of which nothing lies outside of nested streams, wherever it stands. -/
def Hidden (log : List (Entry K σ)) : Prop :=
  ∀ depth rest, outside depth (log ++ rest) = outside depth rest

/-- A part of a log that is not seen from outside of the stream that it belongs to. -/
def Inner (log : List (Entry K σ)) : Prop :=
  ∀ depth rest, outside (depth + 1) (log ++ rest) = outside (depth + 1) rest

theorem Hidden.nil : Hidden ([] : List (Entry K σ)) := fun _ _ => rfl

theorem Hidden.inner {log : List (Entry K σ)} (hidden : Hidden log) : Inner log :=
  fun depth rest => hidden (depth + 1) rest

theorem Inner.append {log log' : List (Entry K σ)} (first : Inner log) (second : Inner log') :
    Inner (log ++ log') := by
  intro depth rest
  rw [List.append_assoc, first, second]

theorem Inner.event (e : Event K σ) : Inner [.event e] := fun _ _ => rfl

theorem Inner.started (call : Call K) (s : RunState K σ) : Inner [.started call s] := fun _ _ => rfl

theorem Inner.finished (call : Call K) (result : Except OperatorError Unit) (s : RunState K σ) :
    Inner [.finished call result s] := fun _ _ => rfl

/-- What a stream does is hidden between the marks where it begins and ends. -/
theorem Inner.hidden {log : List (Entry K σ)} (inner : Inner log) (content : Bytes)
    (s t : RunState K σ) (result : Except ContentError Unit) :
    Hidden (.opened content s :: log ++ [.closed result t]) := by
  intro depth rest
  calc outside depth (.opened content s :: log ++ [.closed result t] ++ rest)
      = outside (depth + 1) (log ++ (.closed result t :: rest)) := by
        simp only [List.cons_append, List.append_assoc, List.nil_append, outside]
    _ = outside (depth + 1) (.closed result t :: rest) := inner depth _
    _ = outside depth rest := rfl

/-- A part of a log in which glyphs are shown outside of nested streams. -/
def Shows (log : List (Entry K σ)) (shown : List (GlyphEvent K σ)) : Prop :=
  ∀ rest, ownGlyphs (log ++ rest) = shown ++ ownGlyphs rest

namespace Shows

variable {log log' : List (Entry K σ)} {shown shown' : List (GlyphEvent K σ)}

theorem ownGlyphs (shows : Shows log shown) : Entry.ownGlyphs log = shown := by
  have whole := shows []
  rw [List.append_nil] at whole
  rw [whole]
  exact List.append_nil shown

theorem append (first : Shows log shown) (second : Shows log' shown') :
    Shows (log ++ log') (shown ++ shown') := by
  intro rest
  rw [List.append_assoc, first, second, List.append_assoc]

theorem of_hidden (hidden : Hidden log) : Shows log [] := fun rest => by
  rw [Entry.ownGlyphs, hidden]
  rfl

theorem event (e : Event K σ) : Shows [.event e] e.glyph?.toList := by
  intro rest
  change glyphs ([.event e] ++ outside 0 rest) = _
  rw [glyphs_append, glyphs_event]
  rfl

theorem warnings (warnings : List Warning) :
    Shows (K := K) (σ := σ) (warnings.map fun w => .event (.warning w)) [] := by
  induction warnings with
  | nil => exact .of_hidden .nil
  | cons w rest ih => exact (event (.warning w)).append ih

end Shows

end Entry

open Entry

/-- What nested streams do is hidden. -/
def NestedRun.Hides (nested : NestedRun K σ) : Prop :=
  ∀ content scope setup s, Hidden (nested content scope setup s).log

section Streams

/-- An operator of a stream is not seen from outside of the stream. -/
theorem Action.inner_run {nested : NestedRun K σ} (hides : nested.Hides)
    (environment : RunState K σ → Environment K σ) (x : Action K σ α) (s : RunState K σ) :
    Inner (x.run environment nested s).log := by
  induction x generalizing s with
  | finish result => exact Hidden.nil.inner
  | look next ih => exact ih _ _ s
  | change f next ih => exact ih (s.updateContext f)
  | tell e next ih => exact (Inner.event e).append (ih s)
  | nest content scope setup next ih => exact (hides content scope setup s).inner.append (ih _ _)

theorem StreamSettings.inner_perform {stream : StreamSettings K σ} (hides : stream.nested.Hides)
    (index : Nat) (call : Call K) (s : RunState K σ) :
    Inner (stream.perform index call s).log := by
  have report (t : RunState K σ) (result : Except OperatorError Unit) :
      Inner (stream.report call t result) := by
    cases result with
    | ok _ => exact Hidden.nil.inner
    | error e =>
        rw [RunSettings.report]
        split
        · exact .event _
        · exact Hidden.nil.inner
  rw [perform]
  exact (((Inner.started call _).append (Action.inner_run hides _ _ _)).append (report _ _)).append
    (.finished _ _ _)

/-- The tokens of a stream are not seen from outside of the stream. -/
theorem StreamSettings.inner_runTokens {stream : StreamSettings K σ} (hides : stream.nested.Hides)
    (fault : Option ContentError) (operands : List (Operand K)) (count : Nat) (s : RunState K σ)
    (tokens : List (Token K)) :
    Inner (stream.runTokens fault operands count s tokens).log := by
  induction tokens generalizing operands count s with
  | nil => cases fault <;> exact Hidden.nil.inner
  | cons token rest ih =>
      cases token with
      | operand v => exact ih _ _ s
      | operator op =>
          have here := inner_perform hides count ⟨op, operands⟩ s
          simp only [runTokens]
          split
          · exact here
          · exact here.append (ih _ _ _)

/-- The induction is on the number of levels. -/
theorem RunSettings.hides_nestedRun [Scalar K] (r : RunSettings K σ) (levels : Nat) :
    (r.nestedRun levels).Hides := by
  induction levels with
  | zero =>
      intro content scope setup s
      rw [nestedRun]
      split <;> exact Hidden.nil
  | succ levels ih =>
      intro content scope setup s
      by_cases limit : r.options.maxDepth ≤ s.depth
      · rw [nestedRun_of_limit _ _ _ _ _ limit]
        exact Hidden.nil
      · rw [nestedRun_succ_of_lt _ _ _ _ _ (Nat.not_le.mp limit)]
        let inner : StreamSettings K σ := { r with scope, nested := r.nestedRun levels }
        have hides : inner.nested.Hides := ih
        exact (StreamSettings.inner_runTokens hides _ _ _ _ _).hidden _ _ _ _

end Streams

variable [Scalar K]

/-- Moves on within the line by one amount after another. -/
def TextObject.advanceAll (object : TextObject K) (amounts : List K) : TextObject K :=
  amounts.foldl (fun object tx => object.advance tx 0) object

namespace TextObject

@[simp] theorem advanceAll_nil (object : TextObject K) : object.advanceAll [] = object := rfl

@[simp] theorem advanceAll_cons (object : TextObject K) (tx : K) (amounts : List K) :
    object.advanceAll (tx :: amounts) = (object.advance tx 0).advanceAll amounts := rfl

theorem advanceAll_append (object : TextObject K) (first second : List K) :
    object.advanceAll (first ++ second) = (object.advanceAll first).advanceAll second :=
  List.foldl_append

/-- Moving on within a line keeps the start of the line. -/
theorem lineMatrix_advanceAll (object : TextObject K) (amounts : List K) :
    (object.advanceAll amounts).lineMatrix = object.lineMatrix := by
  induction amounts generalizing object with
  | nil => rfl
  | cons tx amounts ih => exact ih (object.advance tx 0)

theorem advanceAll_eq (object : TextObject K) (amounts : List K) :
    object.advanceAll amounts = { object with matrix := (object.advanceAll amounts).matrix } := by
  rw [← lineMatrix_advanceAll object amounts]

end TextObject

/-- The state with another open text object. -/
def RunState.withText (s : RunState K σ) (object : TextObject K) : RunState K σ :=
  s.updateContext fun c => { c with text := some object }

omit [Scalar K] in
theorem RunState.withText_self {s : RunState K σ} {object : TextObject K}
    (opened : s.text = some object) : s.withText object = s := by
  rw [withText, RunState.updateContext, ← opened]

namespace Operators

/-! ### Glyphs and advances -/

/-- How far a code moves the text on: by the width of its glyph in the font size, by the character
spacing and, if it is spelled by the single byte of a space, by the word spacing. -/
def codeAdvance (font : Font K σ) (text : TextState K σ) (code : UInt32 × Bytes) : K :=
  ((font.matrix.applyVector ⟨font.width code.1, 0⟩).x * text.fontSize + text.charSpacing +
    (if code.2 = [0x20] then text.wordSpacing else 0)) * text.horizontalScale

/-- The glyphs of codes. Each is placed where the codes before it have moved the text. -/
def codeGlyphs (font : Font K σ) (state : GraphicsState K σ) (object : TextObject K)
    (codes : List (UInt32 × Bytes)) : List (GlyphEvent K σ) :=
  codes.mapIdx fun i code =>
    glyphEvent font state (object.advanceAll ((codes.take i).map (codeAdvance font state.text)))
      code.1 code.2

theorem advance_glyphEvent (font : Font K σ) (state : GraphicsState K σ) (object : TextObject K)
    (code : UInt32 × Bytes) :
    (glyphEvent font state object code.1 code.2).advance = codeAdvance font state.text code := by
  simp only [glyphEvent, codeAdvance, beq_iff_eq]

theorem codeGlyphs_cons (font : Font K σ) (state : GraphicsState K σ) (object : TextObject K)
    (code : UInt32 × Bytes) (rest : List (UInt32 × Bytes)) :
    codeGlyphs font state object (code :: rest) =
      glyphEvent font state object code.1 code.2 ::
        codeGlyphs font state (object.advance (codeAdvance font state.text code) 0) rest := by
  simp only [codeGlyphs, List.mapIdx_cons, List.take_zero, List.map_nil, TextObject.advanceAll_nil,
    List.take_succ_cons, List.map_cons, TextObject.advanceAll_cons]

/-- An element of an array of strings and numbers. -/
def IsShown (v : Operand K) : Bool := v.bytes?.isSome || v.number?.isSome

/-- The codes of an element, if it is a string. -/
def elementCodes (font : Font K σ) (v : Operand K) : List (UInt32 × Bytes) :=
  match v.bytes? with
  | some bytes => font.decode bytes
  | none => []

/-- How far an element moves the text on: a string by its codes, one after another, and a number by as
many thousandths of the font size, back against the line. -/
def elementAdvances (font : Font K σ) (text : TextState K σ) (v : Operand K) : List K :=
  (elementCodes font v).map (codeAdvance font text) ++
    v.number?.toList.map fun n => -n / Scalar.ofInt 1000 * text.fontSize * text.horizontalScale

/-- The glyphs of the strings among elements. Each string begins where the elements before it have
moved the text. -/
def elementGlyphs (font : Font K σ) (state : GraphicsState K σ) (object : TextObject K)
    (items : List (Operand K)) : List (GlyphEvent K σ) :=
  (items.mapIdx fun i v =>
    codeGlyphs font state
      (object.advanceAll ((items.take i).flatMap (elementAdvances font state.text)))
      (elementCodes font v)).flatten

theorem elementGlyphs_cons (font : Font K σ) (state : GraphicsState K σ) (object : TextObject K)
    (v : Operand K) (rest : List (Operand K)) :
    elementGlyphs font state object (v :: rest) =
      codeGlyphs font state object (elementCodes font v) ++
        elementGlyphs font state (object.advanceAll (elementAdvances font state.text v)) rest := by
  simp only [elementGlyphs, List.mapIdx_cons, List.take_zero, List.flatMap_nil,
    TextObject.advanceAll_nil, List.take_succ_cons, List.flatMap_cons,
    TextObject.advanceAll_append, List.flatten_cons]

/-! ### Showing -/

/-- What showing comes to: it shows the glyphs, moves the text on by the amounts, one after another,
and ends with the result. -/
structure Shown (s : RunState K σ) (object : TextObject K) (glyphs : List (GlyphEvent K σ))
    (amounts : List K) (result : Except OperatorError Unit) (o : Outcome OperatorError K σ Unit) :
    Prop where
  result : o.result = result
  shows : Shows o.log glyphs
  state : o.state = s.withText (object.advanceAll amounts)

/-- Showing comes to what it should, or it ends by a fault in the content of a glyph. -/
def ShownOrFault (s : RunState K σ) (object : TextObject K) (glyphs : List (GlyphEvent K σ))
    (amounts : List K) (result : Except OperatorError Unit) (o : Outcome OperatorError K σ Unit) :
    Prop :=
  (∃ cause, o.result = .error (.fatal cause)) ∨ Shown s object glyphs amounts result o

section Combine

variable {s : RunState K σ} {object : TextObject K} {glyphs glyphs' : List (GlyphEvent K σ)}
  {amounts amounts' : List K} {result : Except OperatorError Unit}
  {o : Outcome OperatorError K σ Unit}

theorem ShownOrFault.after {log : List (Entry K σ)}
    (shown : ShownOrFault s object glyphs amounts result o) (before : Shows log glyphs') :
    ShownOrFault s object (glyphs' ++ glyphs) amounts result (o.after log) :=
  shown.imp id fun shown => ⟨shown.result, before.append shown.shows, shown.state⟩

theorem ShownOrFault.unless_fault (shown : ShownOrFault s object glyphs amounts result o)
    (noFault : ∀ cause, o.result ≠ .error (.fatal cause)) :
    o.result = result ∧ Entry.ownGlyphs o.log = glyphs ∧
      o.state = s.updateContext fun c =>
        { c with text := some { object with matrix := (object.advanceAll amounts).matrix } } := by
  rcases shown with ⟨cause, fatal⟩ | ⟨ended, shows, state⟩
  · exact absurd fatal (noFault cause)
  · rw [← TextObject.advanceAll_eq]
    exact ⟨ended, shows.ownGlyphs, state⟩

/-- Two parts in turn. -/
theorem ShownOrFault.andThen {f : Unit → RunState K σ → Outcome OperatorError K σ Unit}
    (first : ShownOrFault s object glyphs amounts (.ok ()) o)
    (second : let next := object.advanceAll amounts
      ShownOrFault (s.withText next) next glyphs' amounts' result (f () (s.withText next))) :
    ShownOrFault s object (glyphs ++ glyphs') (amounts ++ amounts') result (o.andThen f) := by
  rcases first with ⟨cause, fatal⟩ | ⟨succeeded, shows, state⟩
  · rw [Outcome.andThen_of_error fatal]
    exact .inl ⟨cause, rfl⟩
  rw [Outcome.andThen_of_ok succeeded, state]
  rcases second with ⟨cause, fatal⟩ | ⟨ended, shows', state'⟩
  · exact .inl ⟨cause, fatal⟩
  · refine .inr ⟨ended, shows.append shows', ?_⟩
    rw [TextObject.advanceAll_append]
    exact state'

end Combine

/-- How showing the elements of an array ends: by an error at the first one that is neither a string
nor a number. The elements are counted from `index`. -/
def elementsResult (call : Call K) (index : Nat) (items : List (Operand K)) :
    Except OperatorError Unit :=
  match items.dropWhile IsShown with
  | [] => .ok ()
  | v :: _ =>
    .error (call.invalid (index + (items.takeWhile IsShown).length) "string or number" v)

theorem elementsResult_cons_of_shown (call : Call K) (index : Nat) {v : Operand K}
    (rest : List (Operand K)) (kind : IsShown v) :
    elementsResult call index (v :: rest) = elementsResult call (index + 1) rest := by
  simp only [elementsResult, List.dropWhile_cons_of_pos kind, List.takeWhile_cons_of_pos kind,
    List.length_cons, Nat.add_assoc, Nat.add_comm 1]

theorem elementsResult_cons_of_other (call : Call K) (index : Nat) {v : Operand K}
    (rest : List (Operand K)) (other : ¬ IsShown v) :
    elementsResult call index (v :: rest) =
      .error (call.invalid index "string or number" v) := by
  simp only [elementsResult, List.dropWhile_cons_of_neg other, List.takeWhile_cons_of_neg other,
    List.length_nil, Nat.add_zero]

section Runs

variable {r : RunSettings K σ} {scope : σ} {nested : NestedRun K σ} {s : RunState K σ}
  {object : TextObject K}

/-- The procedure that draws a glyph may end in any way; but for a fault, the string goes on. -/
theorem shown_procedure (restores : nested.Restores) (hides : nested.Hides) (keyword : String)
    (content : Bytes) (within : σ) (setup : GraphicsState K σ → GraphicsState K σ)
    (opened : s.text = some object) :
    ShownOrFault s object [] [] (.ok ())
      (((Action.nested content within setup).handle fun
        | .fatal cause => throw (OperatorError.fatal cause)
        | e => Action.warnError keyword e).run (r.environment scope) nested s) := by
  have hidden := Shows.of_hidden (hides content within setup s)
  have back := (restores content within setup s).trans (RunState.withText_self opened).symm
  simp only [Action.run_handle, Action.run_nested]
  cases ended : (nested content within setup s).result with
  | ok _ => exact .inr ⟨rfl, hidden, back⟩
  | error e =>
      obtain ⟨warnings, reported⟩ := Action.exists_run_warnError (r.environment scope) nested
        (nested content within setup s).state keyword e
      cases e with
      | fatal cause => exact .inl ⟨cause, rfl⟩
      | _ =>
          simp only [reported]
          exact .inr ⟨rfl, hidden.append (.warnings warnings), back⟩

theorem shown_showGlyph (restores : nested.Restores) (hides : nested.Hides) (keyword : String)
    (glyph : GlyphEvent K σ) (opened : s.text = some object) :
    ShownOrFault s object [glyph] [] (.ok ())
      ((showGlyph keyword glyph).run (r.environment scope) nested s) := by
  have told : Shows [.event (.glyph glyph s.state)] [glyph] := .event _
  have undrawn : Shown s object [glyph] [] (.ok ())
      (Outcome.after ⟨.ok (), s, []⟩ [.event (.glyph glyph s.state)]) :=
    ⟨rfl, told, (RunState.withText_self opened).symm⟩
  rw [showGlyph, Action.run_state_bind, Action.run_emit_bind, Action.run_environment_bind]
  split
  · split
    · exact .inr undrawn
    · exact (shown_procedure restores hides keyword _ _ _ opened).after told
  · exact .inr undrawn

theorem shown_advance (keyword : String) (tx : K) (opened : s.text = some object) :
    ShownOrFault s object [] [tx] (.ok ())
      ((updateTextObject keyword fun t => t.advance tx 0).run (r.environment scope) nested s) := by
  rw [run_updateTextObject opened]
  exact .inr ⟨rfl, .of_hidden .nil, rfl⟩

/-- One glyph for each code, in order. -/
theorem shown_showCodes (restores : nested.Restores) (hides : nested.Hides) (keyword : String)
    (font : Font K σ) (codes : List (UInt32 × Bytes)) (opened : s.text = some object) :
    ShownOrFault s object (codeGlyphs font s.state object codes)
      (codes.map (codeAdvance font s.state.text)) (.ok ())
      ((showCodes keyword font codes).run (r.environment scope) nested s) := by
  induction codes generalizing s object with
  | nil => exact .inr ⟨rfl, .of_hidden .nil, (RunState.withText_self opened).symm⟩
  | cons code rest ih =>
      rw [showCodes, run_textObject_bind opened, Action.run_state_bind, Action.run_bind,
        codeGlyphs_cons, List.map_cons, advance_glyphEvent]
      refine (shown_showGlyph restores hides keyword _ opened).andThen ?_
      intro next
      rw [Action.run_bind]
      exact (shown_advance keyword _ rfl).andThen (ih rfl)

/-- A string is shown in the font that is selected, or in the fallback font. -/
theorem shown_showString (restores : nested.Restores) (hides : nested.Hides) (keyword : String)
    (bytes : Bytes) (opened : s.text = some object) :
    let font := s.state.text.font.getD .fallback
    ShownOrFault s object (codeGlyphs font s.state object (font.decode bytes))
      ((font.decode bytes).map (codeAdvance font s.state.text)) (.ok ())
      ((showString keyword bytes).run (r.environment scope) nested s) := by
  rw [showString, run_textObject_bind opened, Action.run_state_bind]
  cases selected : s.state.text.font with
  | some font => exact shown_showCodes restores hides keyword font _ opened
  | none =>
      have silent (env : Environment K σ) (code : WarningCode) (description : String) :
          Shows (Action.warned env keyword code description) [] := by
        rw [Action.warned]
        split
        · exact .warnings [_]
        · exact .of_hidden .nil
      simp only [Action.run_warnAt_bind]
      exact (shown_showCodes restores hides keyword .fallback _ opened).after (silent _ _ _)

theorem shown_adjust (call : Call K) (amount : K) (opened : s.text = some object) :
    ShownOrFault s object []
      [-amount / Scalar.ofInt 1000 * s.state.text.fontSize * s.state.text.horizontalScale] (.ok ())
      ((showElements.adjust call amount).run (r.environment scope) nested s) := by
  rw [showElements.adjust, Action.run_state_bind]
  exact shown_advance call.keyword _ opened

/-- An element that is a string or a number is shown, and then the others. -/
theorem shown_element (restores : nested.Restores) (hides : nested.Hides) (call : Call K)
    (index : Nat) (v : Operand K) (rest : List (Operand K)) (opened : s.text = some object)
    (kind : IsShown v) :
    let font := s.state.text.font.getD .fallback
    ∃ x : Action K σ Unit,
      showElements call index (v :: rest) = x >>= (fun _ => showElements call (index + 1) rest) ∧
        ShownOrFault s object (codeGlyphs font s.state object (elementCodes font v))
          (elementAdvances font s.state.text v) (.ok ())
          (x.run (r.environment scope) nested s) := by
  intro font
  cases v with
  | literal bytes =>
      refine ⟨showString call.keyword bytes, rfl, ?_⟩
      simp only [elementAdvances, elementCodes, Operand.bytes?, Operand.number?, Option.toList_none,
        List.map_nil, List.append_nil]
      exact shown_showString restores hides call.keyword bytes opened
  | hexadecimal bytes =>
      refine ⟨showString call.keyword bytes, rfl, ?_⟩
      simp only [elementAdvances, elementCodes, Operand.bytes?, Operand.number?, Option.toList_none,
        List.map_nil, List.append_nil]
      exact shown_showString restores hides call.keyword bytes opened
  | integer i =>
      exact ⟨showElements.adjust call (Scalar.ofInt i), rfl, shown_adjust call _ opened⟩
  | real x => exact ⟨showElements.adjust call x, rfl, shown_adjust call _ opened⟩
  | _ => cases kind

theorem showElements_of_other (call : Call K) (index : Nat) {v : Operand K}
    (rest : List (Operand K)) (other : ¬ IsShown v) :
    showElements (σ := σ) call index (v :: rest) =
      throw (call.invalid index "string or number" v) := by
  cases v <;> first | rfl | exact absurd rfl other

/-- The elements of an array are shown in order, up to the first one that is neither a string nor a
number. -/
theorem shown_showElements (restores : nested.Restores) (hides : nested.Hides) (call : Call K)
    (index : Nat) (items : List (Operand K)) (opened : s.text = some object) :
    let font := s.state.text.font.getD .fallback
    ShownOrFault s object (elementGlyphs font s.state object (items.takeWhile IsShown))
      ((items.takeWhile IsShown).flatMap (elementAdvances font s.state.text))
      (elementsResult call index items)
      ((showElements call index items).run (r.environment scope) nested s) := by
  intro font
  induction items generalizing index s object with
  | nil => exact .inr ⟨rfl, .of_hidden .nil, (RunState.withText_self opened).symm⟩
  | cons v rest ih =>
      by_cases kind : IsShown v
      · obtain ⟨x, split, first⟩ := shown_element restores hides call index v rest opened kind
        rw [split, Action.run_bind, elementsResult_cons_of_shown call index rest kind,
          List.takeWhile_cons_of_pos kind, elementGlyphs_cons, List.flatMap_cons]
        exact first.andThen (ih (index + 1) rfl)
      · rw [showElements_of_other call index rest kind, Action.run_throw,
          elementsResult_cons_of_other call index rest kind, List.takeWhile_cons_of_neg kind]
        exact .inr ⟨rfl, .of_hidden .nil, (RunState.withText_self opened).symm⟩

end Runs

end Operators

namespace RunSettings

open Operators

/-- Strings are shown glyph by glyph by either table, in any font and whatever the content does that
draws the glyphs. Unless a fault in such content ends it, "Tj" succeeds and shows exactly one glyph
for each code of its string, in order. Each has the text matrix that the codes before it have
moved on; in the end the text matrix is moved on by all of them, and nothing else of the state has
changed. "TJ" shows the strings of its array in the same way and moves by the numbers between them.
At an element that is neither it fails, when just the elements before that one have been shown. -/
theorem standard_showsText (r : RunSettings K σ) (standard : IsStandard r.table) (scope : σ)
    (levels : Nat) (s : RunState K σ) (object : TextObject K) (opened : s.text = some object) :
    let font := s.state.text.font.getD .fallback
    let outcome (call : Call K) :=
      (r.table.dispatch call).run (r.environment scope) (r.nestedRun levels) s
    let moved (amounts : List K) := s.updateContext fun c =>
      { c with text := some { object with matrix := (object.advanceAll amounts).matrix } }
    (∀ call : Call K, call.operator.keyword = "Tj" → ∀ bytes, call.string 0 = .ok bytes →
      (∀ cause, (outcome call).result ≠ .error (.fatal cause)) →
      (outcome call).result = .ok () ∧
      Entry.ownGlyphs (outcome call).log = codeGlyphs font s.state object (font.decode bytes) ∧
      (outcome call).state = moved ((font.decode bytes).map (codeAdvance font s.state.text))) ∧
    ∀ call : Call K, call.operator.keyword = "TJ" → ∀ items, call.array 0 = .ok items →
      (∀ cause, (outcome call).result ≠ .error (.fatal cause)) →
      let shown := items.takeWhile IsShown
      (outcome call).result = elementsResult call 0 items ∧
      Entry.ownGlyphs (outcome call).log = elementGlyphs font s.state object shown ∧
      (outcome call).state = moved (shown.flatMap (elementAdvances font s.state.text)) := by
  intro font outcome moved
  have restores := r.restores_nestedRun levels
  have hides := r.hides_nestedRun levels
  constructor
  · intro call keyword bytes given noFault
    have mem : entry "Tj" 1 showText ∈ sharedEntries (K := K) (σ := σ) := by
      simp [sharedEntries, textShowingEntries]
    have carried : r.table.dispatch call = showText call :=
      dispatchWithin_shared standard mem keyword (call.lt_length_of_read given) _
    refine ShownOrFault.unless_fault ?_ noFault
    simp only [outcome, carried, showText, given, Action.run_ok_bind]
    exact shown_showString restores hides call.keyword bytes opened
  · intro call keyword items given noFault
    have mem : entry "TJ" 1 showTextAdjusted ∈ sharedEntries (K := K) (σ := σ) := by
      simp [sharedEntries, textShowingEntries]
    have carried : r.table.dispatch call = showTextAdjusted call :=
      dispatchWithin_shared standard mem keyword (call.lt_length_of_read given) _
    refine ShownOrFault.unless_fault ?_ noFault
    simp only [outcome, carried, showTextAdjusted, given, Action.run_ok_bind,
      run_textObject_bind opened]
    exact shown_showElements restores hides call 0 items opened

/-- A font whose glyphs are drawn by the content `BT Q`, which leaves a text object open and
restores more than it has saved. An array is shown up to a null object; its number takes back three
times the font size. -/
theorem standard_showsText_type3 :
    let font : Font Int Unit :=
      { (.ofWidth "Type3" .type3 fun code => (code.toNat : Int) : Font Int Unit) with
        matrix := .identity
        procedure? := fun _ => some ⟨[0x42, 0x54, 0x20, 0x51], none⟩ }
    let r : RunSettings Int Unit := graphics .standard .identity (.ofCatalogs fun _ => {})
    let s : RunState Int Unit := (RunState.initial .identity).updateContext fun c =>
      { c with text := some .initial }.updateState fun t =>
        { t with text := { t.text with font := some font, fontSize := 2, wordSpacing := 3 } }
    let outcome (call : Call Int) :=
      (r.table.dispatch call).run (r.environment ()) (r.nestedRun 2) s
    let string : Call Int := ⟨.plain "Tj", [.literal [0x41, 0x20, 0x42]]⟩
    let array : Call Int :=
      ⟨.plain "TJ", [.array [.literal [0x41], .integer 3000, .literal [0x42], .null]]⟩
    (Entry.ownGlyphs (outcome string).log).map (fun g => (g.code, g.textMatrix.e)) =
        [(0x41, 0), (0x20, 130), (0x42, 197)] ∧
      (Entry.ownGlyphs (outcome array).log).map (fun g => (g.code, g.textMatrix.e)) =
        [(0x41, 0), (0x42, 124)] ∧
      (outcome array).state.text.map (fun t => (t.matrix.e, t.lineMatrix.e)) = some (256, 0) := by
  intro font r s outcome string array
  have shown : (outcome string).result = .ok () := by decide +kernel
  have stopped : (outcome array).result =
      .error (.invalidOperand "TJ" 3 "string or number" "null") := by
    decide +kernel
  have shows := standard_showsText r (.inl rfl) () 2 s .initial rfl
  obtain ⟨-, glyphs, -⟩ := shows.1 string rfl [0x41, 0x20, 0x42] rfl fun cause fatal => by
    cases shown.symm.trans fatal
  obtain ⟨-, glyphs', moved⟩ := shows.2 array rfl _ rfl fun cause fatal => by
    cases stopped.symm.trans fatal
  rw [glyphs, glyphs', moved]
  exact ⟨by decide +kernel, by decide +kernel, by decide +kernel⟩

end RunSettings

end PdfContent
