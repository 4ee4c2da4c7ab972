import PdfContent.Operators.Basic

/-!
# Forms and images

A form is run as a nested stream under its matrix, clipped to its box; images go to the device with the
map that takes the unit square to where they are painted.
-/

namespace PdfContent

variable {K : Type} [Scalar K]

/-- An integer of an image that fits into 32 bits without a sign. -/
def InlineImage.count? (image : InlineImage K) (short long : String) : Option Nat :=
  match (image.parameter? short long).bind Operand.integer? with
  | some i => if 0 ≤ i ∧ i < 0x100000000 then some i.toNat else none
  | none => none

/-- An inline image as an image. A colour space that is not known by its own name is looked up. -/
def Image.ofInline (image : InlineImage K) (colorSpace : String → Option ColorSpace) : Image :=
  let isStencil := ((image.parameter? "IM" "ImageMask").bind Operand.boolean?).getD false
  { width := (image.count? "W" "Width").getD 0
    height := (image.count? "H" "Height").getD 0
    bitsPerComponent := if isStencil then some 1 else image.count? "BPC" "BitsPerComponent"
    colorSpace := ((image.parameter? "CS" "ColorSpace").bind Operand.name?).bind fun name =>
      (ColorSpace.ofInlineName? name).or (colorSpace name)
    isStencil
    filters := image.filters
    decoded := image.filters.isEmpty
    hasSoftMask := false
    data := image.data }

namespace Operators

variable {σ : Type}

/-- What the device is told when a form begins under a map to device space that its own matrix is part
of. -/
def formEvent (name : String) (form : Form K σ) (ctm : Matrix K) : FormEvent K where
  name
  ctm
  bbox := form.bbox.transform ctm
  group := form.group

/-- The graphics state that a form starts with. -/
def enterForm (form : Form K σ) (s : GraphicsState K σ) : GraphicsState K σ :=
  (s.concat form.matrix).clipToBox form.bbox

/-- Runs a form between its two events; at the depth limit there are no events. -/
def showForm (name : String) (form : Form K σ) : Action K σ Unit := do
  Action.checkDepth
  let env ← Action.environment
  let state ← Action.state
  Action.emit (.beginForm (formEvent name form (form.matrix.concat state.ctm)))
  (Action.nested form.content (form.scope.getD env.scope) (enterForm form)).andFinally
    (Action.emit .endForm)

def drawImage (name : Option String) (image : Image) (inline : Option (InlineImage K)) :
    Action K σ Unit := do
  let state ← Action.state
  Action.emit (.image ⟨name, state.ctm, image, inline⟩ state)

def invoke (call : Call K) : Action K σ Unit := do
  let name ← Action.ofExcept (call.name 0)
  let env ← Action.environment
  match ← Action.ofExcept (require .xobject name (env.resolver.xobject env.scope name)) with
  | .form form => showForm name form
  | .image image => drawImage (some name) image none
  | .postScript => return ()

def showInlineImage (call : Call K) : Action K σ Unit := do
  match call.operator.image? with
  | none => throw (OperatorError.invalidValue call.keyword "inline image without data")
  | some image =>
    let env ← Action.environment
    drawImage none (Image.ofInline image (env.resolver.colorSpace env.scope)) (some image)

def formEntries : List (TableEntry K (Action K σ)) := [entry "Do" 1 invoke]

def inlineImageEntries : List (TableEntry K (Action K σ)) := [entry "BI" 0 showInlineImage]

end Operators

end PdfContent
