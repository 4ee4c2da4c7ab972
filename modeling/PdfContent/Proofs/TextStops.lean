import Mathlib.Data.List.Chain
import Mathlib.Tactic.Ring
import PdfContent.Layout.TextPosition
import PdfContent.Proofs.ExactDivision
import PdfContent.Proofs.ExactGeometry
import PdfContent.Proofs.ShownText

/-!
# Where text stops and goes on

The text of a glyph stops where the advance of the glyph ends on the baseline, and starts where the
glyph is placed, which is away from the baseline by the rise. Both are images of points of text space
under one map, that of the text matrix at the glyph, and the text matrix of the next glyph only moves
that map on along the baseline. So between where one text stops and where the next one starts lies the
image of a vector that is the same along the whole string: the rise, if there is no extra spacing.
-/

namespace PdfContent

variable {K σ : Type}

namespace Operators

/-! ### Showing text without a device -/

section Unseen

variable [Scalar K] {r : RunSettings K σ} {scope : σ} {nested : NestedRun K σ} {s : RunState K σ}
  {object : TextObject K}

omit [Scalar K] in
/-- Where nothing is drawn, no procedure of a glyph is run. -/
theorem run_showGlyph_unseen (unseen : r.receiver ≠ .device) (keyword : String)
    (glyph : GlyphEvent K σ) :
    (showGlyph keyword glyph).run (r.environment scope) nested s =
      ⟨.ok (), s, [.event (.glyph glyph s.state)]⟩ := by
  have undrawn : ¬ ((r.environment scope s).receiver = .device && glyph.font.kind = .type3 &&
      (r.environment scope s).options.runGlyphProcedures) := by
    simp [RunSettings.environment, unseen]
  rw [showGlyph, Action.run_state_bind, Action.run_emit_bind, Action.run_environment_bind,
    if_neg undrawn]
  rfl

theorem run_showCodes_unseen (unseen : r.receiver ≠ .device) (keyword : String) (font : Font K σ)
    (codes : List (UInt32 × Bytes)) (opened : s.text = some object) :
    let o := (showCodes keyword font codes).run (r.environment scope) nested s
    o.result = .ok () ∧ Entry.glyphs o.log = codeGlyphs font s.state object codes := by
  induction codes generalizing s object with
  | nil => exact ⟨rfl, rfl⟩
  | cons code rest ih =>
      let glyph := glyphEvent font s.state object code.1 code.2
      obtain ⟨ended, glyphs⟩ := ih (s := s.withText (object.advance glyph.advance 0)) rfl
      have first (f : Unit → Action K σ Unit) :
          (showGlyph keyword glyph >>= f).run (r.environment scope) nested s =
            ((f ()).run (r.environment scope) nested s).after [.event (.glyph glyph s.state)] := by
        rw [Action.run_bind, run_showGlyph_unseen unseen, Outcome.andThen_of_ok rfl]
      have moved (f : Unit → Action K σ Unit) :
          ((updateTextObject keyword fun t => t.advance glyph.advance 0) >>= f).run
              (r.environment scope) nested s =
            (f ()).run (r.environment scope) nested
              (s.withText (object.advance glyph.advance 0)) := by
        rw [Action.run_bind, run_updateTextObject opened, Outcome.andThen_of_ok rfl]
        rfl
      rw [showCodes, run_textObject_bind opened, Action.run_state_bind, first, moved,
        codeGlyphs_cons, ← advance_glyphEvent]
      refine ⟨ended, ?_⟩
      rw [Outcome.log_after, Entry.glyphs_append, glyphs]
      rfl

omit [Scalar K] in
theorem glyphs_warned (env : Environment K σ) (keyword : String) (code : WarningCode)
    (description : String) : Entry.glyphs (Action.warned env keyword code description) = [] := by
  rw [Action.warned]
  split <;> rfl

theorem run_showString_unseen (unseen : r.receiver ≠ .device) (keyword : String) (bytes : Bytes)
    (opened : s.text = some object) :
    let font := s.state.text.font.getD .fallback
    let o := (showString keyword bytes).run (r.environment scope) nested s
    o.result = .ok () ∧ Entry.glyphs o.log = codeGlyphs font s.state object (font.decode bytes) := by
  rw [showString, run_textObject_bind opened, Action.run_state_bind]
  cases selected : s.state.text.font with
  | some font => exact run_showCodes_unseen unseen keyword font _ opened
  | none =>
      simp only [Action.run_warnAt_bind, Outcome.result_after, Outcome.log_after,
        Entry.glyphs_append, glyphs_warned, List.nil_append]
      exact run_showCodes_unseen unseen keyword .fallback _ opened

end Unseen

end Operators

/-! ### Starts and stops -/

/-- Where the glyph is placed. -/
def TextPosition.start (p : TextPosition K σ) : Point K := ⟨p.matrix.e, p.matrix.f⟩

namespace Operators

variable [ExactScalar K] {frame : PageFrame K} {font : Font K σ} {state : GraphicsState K σ}
  {object : TextObject K} {code : UInt32 × Bytes} {p : TextPosition K σ}

/-- Where a point of text space lies on the page. -/
def onPage (frame : PageFrame K) (state : GraphicsState K σ) (object : TextObject K) (p : Point K) :
    Point K :=
  ((object.matrix.concat state.ctm).applyPoint p).moved ⟨-frame.origin.x, -frame.origin.y⟩

theorem onPage_advance (tx : K) (q : Point K) :
    onPage frame state (object.advance tx 0) q = onPage frame state object (q.moved ⟨tx, 0⟩) := by
  simp only [onPage, TextObject.advance, Matrix.applyPoint_concat, Matrix.applyPoint_shift]

theorem onPage_moved (q v : Point K) :
    onPage frame state object (q.moved v) =
      (onPage frame state object q).moved ((object.matrix.concat state.ctm).applyVector v) := by
  rw [onPage, onPage, Matrix.applyPoint_moved, Point.moved_right_comm]

/-- Moving on within a line does not turn or stretch anything. -/
theorem applyVector_advance (tx : K) (v : Point K) :
    ((object.advance tx 0).matrix.concat state.ctm).applyVector v =
      (object.matrix.concat state.ctm).applyVector v := by
  simp only [TextObject.advance, Matrix.applyVector_concat, Matrix.applyVector_shift]

theorem exists_ofGlyph? (frame : PageFrame K) {glyph : GlyphEvent K σ}
    (named : glyph.impliedText?.isSome) : ∃ p, TextPosition.ofGlyph? frame glyph = some p := by
  obtain ⟨text, isText⟩ := Option.isSome_iff_exists.mp named
  simp only [TextPosition.ofGlyph?, isText]
  exact ⟨_, rfl⟩

/-- A glyph is placed on its line but for the rise. -/
theorem start_ofGlyph?
    (placed : TextPosition.ofGlyph? frame (glyphEvent font state object code.1 code.2) = some p) :
    p.start = onPage frame state object ⟨0, state.text.rise⟩ := by
  simp only [TextPosition.ofGlyph?, Option.bind_eq_bind, Option.bind_eq_some_iff] at placed
  obtain ⟨text, -, ⟨⟩⟩ := placed
  rw [TextPosition.start, ← Matrix.applyPoint_origin, onPage]
  simp only [glyphEvent, Matrix.applyPoint_concat, Matrix.applyPoint_shift]
  rw [Matrix.applyPoint_origin, TextState.parameterMatrix]

/-- How far a code moves the text on by the width of its glyph alone. -/
def codeWidth (font : Font K σ) (text : TextState K σ) (code : UInt32 × Bytes) : K :=
  (font.matrix.applyVector ⟨font.width code.1, 0⟩).x * text.fontSize * text.horizontalScale

/-- Its text stops on the line, where its width ends. -/
theorem stop_ofGlyph?
    (placed : TextPosition.ofGlyph? frame (glyphEvent font state object code.1 code.2) = some p) :
    p.stop = onPage frame state object ⟨codeWidth font state.text code, 0⟩ := by
  simp only [TextPosition.ofGlyph?, Option.bind_eq_bind, Option.bind_eq_some_iff] at placed
  obtain ⟨text, -, ⟨⟩⟩ := placed
  have next (m : Matrix K) : (⟨m.e - frame.origin.x, m.f - frame.origin.y⟩ : Point K) =
      (m.applyPoint ⟨0, 0⟩).moved ⟨-frame.origin.x, -frame.origin.y⟩ := by
    rw [Matrix.applyPoint_origin, Point.moved, sub_eq_add_neg, sub_eq_add_neg]
  rw [next, onPage, GlyphEvent.nextMatrix]
  simp only [glyphEvent, Matrix.applyPoint_concat, Matrix.applyPoint_shift, Point.moved, zero_add,
    codeWidth]

/-- What comes after a code besides the width of its glyph. -/
def codeGap (text : TextState K σ) (code : UInt32 × Bytes) : K :=
  (text.charSpacing + if code.2 = [0x20] then text.wordSpacing else 0) * text.horizontalScale

theorem codeAdvance_eq (font : Font K σ) (text : TextState K σ) (code : UInt32 × Bytes) :
    codeAdvance font text code = codeWidth font text code + codeGap text code := by
  rw [codeAdvance, codeWidth, codeGap]
  ring

/-- Between the stop of one glyph and the start of the next one are the gap and the rise. -/
theorem start_eq_stop_moved {p q : TextPosition K σ} {next : UInt32 × Bytes}
    (placed : TextPosition.ofGlyph? frame (glyphEvent font state object code.1 code.2) = some p)
    (placed' : TextPosition.ofGlyph? frame (glyphEvent font state
      (object.advance (codeAdvance font state.text code) 0) next.1 next.2) = some q) :
    q.start = p.stop.moved ((object.matrix.concat state.ctm).applyVector
      ⟨codeGap state.text code, state.text.rise⟩) := by
  rw [start_ofGlyph? placed', stop_ofGlyph? placed, onPage_advance, ← onPage_moved, codeAdvance_eq]
  congr 1
  simp only [Point.moved, Point.mk.injEq]
  constructor <;> ring

/-- Along a string without extra spacing, each text starts away from the stop of the one before it by
the image of the rise. The induction is on the codes; the line moves on, but is not turned. -/
theorem isChain_positions (frame : PageFrame K) (unspaced : ∀ code, codeGap state.text code = 0)
    (codes : List (UInt32 × Bytes))
    (named : ∀ glyph ∈ codeGlyphs font state object codes, glyph.impliedText?.isSome) :
    ((codeGlyphs font state object codes).filterMap (TextPosition.ofGlyph? frame)).IsChain
      fun p q => q.start = p.stop.moved
        ((object.matrix.concat state.ctm).applyVector ⟨0, state.text.rise⟩) := by
  induction codes generalizing object with
  | nil => exact .nil
  | cons code rest ih =>
      rw [codeGlyphs_cons] at named ⊢
      obtain ⟨p, placed⟩ := exists_ofGlyph? frame (named _ (List.mem_cons_self ..))
      have others := ih fun glyph mem => named glyph (List.mem_cons_of_mem _ mem)
      rw [applyVector_advance] at others
      rw [List.filterMap_cons_some placed, List.isChain_cons]
      refine ⟨fun q isNext => ?_, others⟩
      cases rest with
      | nil => cases isNext
      | cons next rest =>
          rw [codeGlyphs_cons] at named isNext
          obtain ⟨q', placed'⟩ := exists_ofGlyph? frame
            (named _ (List.mem_cons_of_mem _ (List.mem_cons_self ..)))
          rw [List.filterMap_cons_some placed'] at isNext
          obtain rfl : q' = q := Option.some.inj isNext
          rw [start_eq_stop_moved placed placed', unspaced]

theorem length_positions (frame : PageFrame K) (codes : List (UInt32 × Bytes))
    (named : ∀ glyph ∈ codeGlyphs font state object codes, glyph.impliedText?.isSome) :
    ((codeGlyphs font state object codes).filterMap (TextPosition.ofGlyph? frame)).length =
      codes.length := by
  rw [List.filterMap_length_eq_length.mpr]
  · simp [codeGlyphs]
  · intro glyph mem
    obtain ⟨p, placed⟩ := exists_ofGlyph? frame (named glyph mem)
    rw [placed]
    rfl

/-- Texts that are all the same vector apart follow one another directly just if the vector is zero. -/
theorem isChain_start_eq_stop_iff {positions : List (TextPosition K σ)} {v : Point K}
    (apart : positions.IsChain fun p q => q.start = p.stop.moved v) :
    (positions.IsChain fun p q => q.start = p.stop) ↔ v = ⟨0, 0⟩ ∨ positions.length ≤ 1 := by
  match positions with
  | [] => simp
  | [p] => simp
  | p :: q :: rest =>
      constructor
      · intro chain
        have here := (List.isChain_cons_cons.mp chain).1
        rw [(List.isChain_cons_cons.mp apart).1] at here
        exact .inl ((Point.moved_eq_self_iff _ _).mp here)
      · rintro (zero | short)
        · refine apart.imp fun p q start => ?_
          rw [start, (Point.moved_eq_self_iff _ _).mpr zero]
        · simp at short

end Operators

namespace RunSettings

open Operators

variable [ExactScalar K]

/-- When text is found, "Tj" always succeeds. If all glyphs of its string have a text and there is no
extra spacing, each text starts where the one before it stops, but for the rise. So the stops are the
starts of the next texts just if the rise is none or does not show, or there are no two texts. -/
theorem text_nextStart (options : Options) (resolver : Resolver K σ) (scope : σ) (levels : Nat)
    {s : RunState K σ} {object : TextObject K} (opened : s.text = some object)
    (noCharSpacing : s.state.text.charSpacing = 0) (noWordSpacing : s.state.text.wordSpacing = 0)
    {call : Call K} (keyword : call.operator.keyword = "Tj") {bytes : Bytes}
    (given : call.string 0 = .ok bytes) (frame : PageFrame K) :
    let r := text options resolver
    let o := (r.table.dispatch call).run (r.environment scope) (r.nestedRun levels) s
    let font := s.state.text.font.getD .fallback
    let positions := TextPosition.ofLog frame o.log
    let raised := (object.matrix.concat s.state.ctm).applyVector ⟨0, s.state.text.rise⟩
    o.result = .ok () ∧
      ((∀ glyph ∈ Entry.glyphs o.log, glyph.impliedText?.isSome) →
        positions.length = (font.decode bytes).length ∧
        (positions.IsChain fun p q => q.start = p.stop.moved raised) ∧
        ((positions.IsChain fun p q => q.start = p.stop) ↔
          raised = ⟨0, 0⟩ ∨ positions.length ≤ 1)) := by
  intro r o font positions raised
  have mem : entry "Tj" 1 showText ∈ sharedEntries (K := K) (σ := σ) := by
    simp [sharedEntries, textShowingEntries]
  have carried : r.table.dispatch call = showText call :=
    dispatchWithin_shared (.inr rfl) mem keyword (call.lt_length_of_read given) _
  have shown : o.result = .ok () ∧
      Entry.glyphs o.log = codeGlyphs font s.state object (font.decode bytes) := by
    simp only [o, carried, showText, given, Action.run_ok_bind]
    exact run_showString_unseen (by simp [r, text]) call.keyword bytes opened
  refine ⟨shown.1, fun named => ?_⟩
  have unspaced (code : UInt32 × Bytes) : codeGap s.state.text code = 0 := by
    simp [codeGap, noCharSpacing, noWordSpacing]
  rw [shown.2] at named
  have isPositions : positions = (codeGlyphs font s.state object (font.decode bytes)).filterMap
      (TextPosition.ofGlyph? frame) := by
    rw [← shown.2]
    rfl
  have apart := isChain_positions frame unspaced (font.decode bytes) named
  rw [← isPositions] at apart
  exact ⟨isPositions ▸ length_positions frame _ named, apart, isChain_start_eq_stop_iff apart⟩

/-- Two glyphs on a slanted line, half as wide as their size and without rise. -/
theorem text_nextStart_slanted :
    let font : Font ℚ Unit := .ofWidth "F" .simple fun _ => 500
    let r : RunSettings ℚ Unit := text .standard (.ofCatalogs fun _ => {})
    let s : RunState ℚ Unit := (RunState.initial .identity).updateContext fun c =>
      { c with text := some ⟨⟨2, 1, 0, 3, 5, 7⟩, .identity⟩ }.updateState fun t =>
        { t with text := { t.text with font := some font, fontSize := 10 } }
    let call : Call ℚ := ⟨.plain "Tj", [.literal [0x61, 0x62]]⟩
    let o := (r.table.dispatch call).run (r.environment ()) (r.nestedRun 2) s
    (TextPosition.ofLog .letter o.log).length = 2 ∧
      (TextPosition.ofLog .letter o.log).IsChain fun p q => q.start = p.stop := by
  intro font r s call o
  have named : ∀ glyph ∈ Entry.glyphs o.log, glyph.impliedText?.isSome := by decide +kernel
  have opened : s.text = some ⟨⟨2, 1, 0, 3, 5, 7⟩, .identity⟩ := rfl
  have given : call.string 0 = .ok [0x61, 0x62] := rfl
  obtain ⟨-, placed⟩ := text_nextStart .standard (.ofCatalogs fun _ => {}) () 2 opened rfl rfl rfl
    given .letter
  obtain ⟨length, -, direct⟩ := placed named
  have level : s.state.text.rise = 0 := rfl
  refine ⟨length.trans (by decide +kernel), direct.mpr (.inl ?_)⟩
  simp [Matrix.applyVector, level]

/-- Two glyphs five units above their line. The first one stops on the line. -/
theorem text_nextStart_raised :
    let written (text : String) : Bytes := text.toList.map fun c => UInt8.ofNat c.toNat
    let font : Font ℚ Unit := .ofWidth "F" .simple fun _ => 500
    let r : RunSettings ℚ Unit := text .standard (.ofCatalogs fun _ => { fonts := [("F", font)] })
    ∃ p q : TextPosition ℚ Unit,
      TextPosition.ofLog .letter (r.page (written "BT /F 10 Tf 5 Ts (ab) Tj ET") ()).log = [p, q] ∧
        p.stop = ⟨5, 0⟩ ∧ q.start = ⟨5, 5⟩ := by
  intro written font r
  have ends : (TextPosition.ofLog .letter
      (r.page (written "BT /F 10 Tf 5 Ts (ab) Tj ET") ()).log).map
        (fun p => (p.stop.x, p.stop.y, p.start.x, p.start.y)) = [(5, 0, 0, 5), (10, 0, 5, 5)] := by
    decide +kernel
  obtain ⟨p, rest, isPositions, first, others⟩ := List.map_eq_cons_iff.mp ends
  obtain ⟨q, last, rfl, second, none⟩ := List.map_eq_cons_iff.mp others
  obtain rfl := List.map_eq_nil_iff.mp none
  simp only [Prod.mk.injEq] at first second
  refine ⟨p, q, isPositions, ?_, ?_⟩
  · exact congrArg₂ Point.mk first.1 first.2.1
  · exact congrArg₂ Point.mk second.2.2.1 second.2.2.2

end RunSettings

end PdfContent
