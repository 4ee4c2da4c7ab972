import PdfContent.State.Text
import PdfContent.Resources

/-!
# The graphics state and its stack

A `StateStack` is the current graphics state and the saved ones, latest first. A nested stream starts
with a copy of the current state and nothing saved, so it cannot restore what surrounds it.
-/

namespace PdfContent

structure GraphicsState (K σ : Type) where
  /-- From user space to device space. -/
  ctm : Matrix K
  strokeSpace : ColorSpace
  fillSpace : ColorSpace
  strokeColor : Color K
  fillColor : Color K
  lineWidth : K
  lineCap : LineCap
  lineJoin : LineJoin
  miterLimit : K
  dash : DashPattern K
  renderingIntent : RenderingIntent
  flatness : K
  smoothness : K
  strokeAdjustment : Bool
  clip : Clip K
  text : TextState K σ
  blendMode : BlendMode
  softMask : Option (SoftMask K)
  strokeAlpha : K
  fillAlpha : K
  alphaIsShape : Bool
  strokeOverprint : Bool
  fillOverprint : Bool
  overprintMode : Int

variable {K σ : Type} [Scalar K]

namespace GraphicsState

/-- The state that a page starts with, under a given map to device space. -/
def initial (ctm : Matrix K) : GraphicsState K σ where
  ctm
  strokeSpace := .deviceGray
  fillSpace := .deviceGray
  strokeColor := .black
  fillColor := .black
  lineWidth := 1
  lineCap := .butt
  lineJoin := .miter
  miterLimit := Scalar.ofInt 10
  dash := .solid
  renderingIntent := .relativeColorimetric
  flatness := 1
  smoothness := 0
  strokeAdjustment := false
  clip := .unrestricted
  text := .initial
  blendMode := .normal
  softMask := none
  strokeAlpha := 1
  fillAlpha := 1
  alphaIsShape := false
  strokeOverprint := false
  fillOverprint := false
  overprintMode := 0

/-- Puts `m` in front of the map to device space. -/
def concat (s : GraphicsState K σ) (m : Matrix K) : GraphicsState K σ := { s with ctm := m.concat s.ctm }

/-- Restricts painting to a path in device space, too. -/
def intersectClip (s : GraphicsState K σ) (path : Path K) (rule : FillRule) : GraphicsState K σ :=
  { s with clip := s.clip.intersect path rule }

/-- Restricts painting to a box in user space, too. -/
def clipToBox (s : GraphicsState K σ) (box : BBox K) : GraphicsState K σ :=
  s.intersectClip (Path.ofBox box s.ctm) .nonZero

/-- The line width in device space, for a scale that is the mean of both directions. -/
def deviceLineWidth (s : GraphicsState K σ) : K :=
  s.lineWidth * Scalar.half (s.ctm.scaleX + s.ctm.scaleY)

/-- Sets the parameters that are given. Overprinting for fills follows the one for strokes unless it is
given itself. -/
def applyParameters (s : GraphicsState K σ) (p : StateParameters K σ) : GraphicsState K σ :=
  { s with
    lineWidth := p.lineWidth.getD s.lineWidth
    lineCap := p.lineCap.getD s.lineCap
    lineJoin := p.lineJoin.getD s.lineJoin
    miterLimit := p.miterLimit.getD s.miterLimit
    dash := p.dash.getD s.dash
    renderingIntent := p.renderingIntent.getD s.renderingIntent
    flatness := p.flatness.getD s.flatness
    smoothness := p.smoothness.getD s.smoothness
    strokeAdjustment := p.strokeAdjustment.getD s.strokeAdjustment
    blendMode := p.blendMode.getD s.blendMode
    softMask := p.softMask.getD s.softMask
    strokeAlpha := p.strokeAlpha.getD s.strokeAlpha
    fillAlpha := p.fillAlpha.getD s.fillAlpha
    alphaIsShape := p.alphaIsShape.getD s.alphaIsShape
    strokeOverprint := p.strokeOverprint.getD s.strokeOverprint
    fillOverprint := (p.fillOverprint.or p.strokeOverprint).getD s.fillOverprint
    overprintMode := p.overprintMode.getD s.overprintMode
    text :=
      let text := { s.text with knockout := p.textKnockout.getD s.text.knockout }
      match p.font with
      | some (font, size) => { text with font := some font, fontName := none, fontSize := size }
      | none => text }

/-- Equality of all parameters, numbers compared numerically. -/
def same (s t : GraphicsState K σ) : Bool :=
  s.ctm.same t.ctm && s.strokeSpace == t.strokeSpace && s.fillSpace == t.fillSpace &&
  s.strokeColor.same t.strokeColor && s.fillColor.same t.fillColor &&
  Scalar.sameList
    [s.lineWidth, s.miterLimit, s.flatness, s.smoothness, s.strokeAlpha, s.fillAlpha]
    [t.lineWidth, t.miterLimit, t.flatness, t.smoothness, t.strokeAlpha, t.fillAlpha] &&
  s.lineCap == t.lineCap && s.lineJoin == t.lineJoin && s.dash.same t.dash &&
  s.renderingIntent == t.renderingIntent && s.strokeAdjustment == t.strokeAdjustment &&
  s.clip.same t.clip && s.text.same t.text && s.blendMode == t.blendMode &&
  (match s.softMask, t.softMask with
    | none, none => true
    | some m, some n => m.same n
    | _, _ => false) &&
  s.alphaIsShape == t.alphaIsShape && s.strokeOverprint == t.strokeOverprint &&
  s.fillOverprint == t.fillOverprint && s.overprintMode == t.overprintMode

end GraphicsState

structure StateStack (K σ : Type) where
  current : GraphicsState K σ
  saved : List (GraphicsState K σ)

namespace StateStack

omit [Scalar K]

def ofState (s : GraphicsState K σ) : StateStack K σ := ⟨s, []⟩

/-- The number of states, the current one included. -/
def depth (s : StateStack K σ) : Nat := s.saved.length + 1

def update (s : StateStack K σ) (f : GraphicsState K σ → GraphicsState K σ) : StateStack K σ :=
  { s with current := f s.current }

def save (s : StateStack K σ) : StateStack K σ := ⟨s.current, s.current :: s.saved⟩

/-- The stack before the latest `save`; none if nothing is saved. -/
def restore? (s : StateStack K σ) : Option (StateStack K σ) :=
  match s.saved with
  | [] => none
  | state :: rest => some ⟨state, rest⟩

/-- The stack of a nested stream. -/
def nested (s : StateStack K σ) : StateStack K σ := ⟨s.current, []⟩

@[simp] theorem restore?_save (s : StateStack K σ) : s.save.restore? = some s := rfl

@[simp] theorem current_save (s : StateStack K σ) : s.save.current = s.current := rfl

@[simp] theorem saved_save (s : StateStack K σ) : s.save.saved = s.current :: s.saved := rfl

@[simp] theorem current_update (s : StateStack K σ) (f : GraphicsState K σ → GraphicsState K σ) :
    (s.update f).current = f s.current := rfl

@[simp] theorem saved_update (s : StateStack K σ) (f : GraphicsState K σ → GraphicsState K σ) :
    (s.update f).saved = s.saved := rfl

@[simp] theorem current_nested (s : StateStack K σ) : s.nested.current = s.current := rfl

@[simp] theorem saved_nested (s : StateStack K σ) : s.nested.saved = [] := rfl

end StateStack

end PdfContent
