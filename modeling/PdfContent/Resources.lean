import PdfContent.Font.Basic
import PdfContent.Paint.Color
import PdfContent.Paint.Style
import PdfContent.Content.Operand

/-!
# Named resources

Content refers to fonts, colour spaces, forms and the like by name. A `Resolver` finds them in a scope;
scopes are values of a type `σ` that the interpreter passes on without looking inside, so a scope may
lead back to itself. Forms, tiling patterns and glyph procedures carry the scope of their own content if
they have one.
-/

namespace PdfContent

structure TransparencyGroup where
  isolated : Bool
  knockout : Bool
  colorSpace : Option ColorSpace

/-- Content that is run as a part of other content. -/
structure Form (K σ : Type) where
  content : Bytes
  matrix : Matrix K
  bbox : BBox K
  scope : Option σ
  group : Option TransparencyGroup

/-- An image. Its data are samples if `decoded` is set, else they still have to go through the
filters. -/
structure Image where
  width : Nat
  height : Nat
  bitsPerComponent : Option Nat
  colorSpace : Option ColorSpace
  isStencil : Bool
  filters : List String
  decoded : Bool
  hasSoftMask : Bool
  data : Bytes

inductive XObject (K σ : Type)
  | form (form : Form K σ)
  | image (image : Image)
  | postScript

structure Shading (K : Type) where
  kind : Int
  colorSpace : Option ColorSpace
  bbox : Option (BBox K)
  antiAlias : Bool

/-- A pattern whose cell is drawn by content. -/
structure TilingPattern (K σ : Type) where
  content : Bytes
  matrix : Matrix K
  bbox : BBox K
  xStep : K
  yStep : K
  paintType : Int
  tilingType : Int
  scope : Option σ

/-- Whether the cell takes its colour from outside. -/
def TilingPattern.isUncolored {K σ : Type} (p : TilingPattern K σ) : Bool := p.paintType == 2

/-- Parameters of the graphics state, those that are given. -/
structure StateParameters (K σ : Type) where
  lineWidth : Option K := none
  lineCap : Option LineCap := none
  lineJoin : Option LineJoin := none
  miterLimit : Option K := none
  dash : Option (DashPattern K) := none
  renderingIntent : Option RenderingIntent := none
  flatness : Option K := none
  smoothness : Option K := none
  strokeAdjustment : Option Bool := none
  blendMode : Option BlendMode := none
  /-- A mask, or `some none` to remove the mask. -/
  softMask : Option (Option (SoftMask K)) := none
  strokeAlpha : Option K := none
  fillAlpha : Option K := none
  alphaIsShape : Option Bool := none
  textKnockout : Option Bool := none
  strokeOverprint : Option Bool := none
  fillOverprint : Option Bool := none
  overprintMode : Option Int := none
  font : Option (Font K σ × K) := none

inductive Pattern (K σ : Type)
  | tiling (pattern : TilingPattern K σ)
  | shading (shading : Shading K) (matrix : Matrix K) (parameters : Option (StateParameters K σ))

/-- Finds resources by name in a scope. -/
structure Resolver (K σ : Type) where
  font : σ → String → Option (Font K σ)
  colorSpace : σ → String → Option ColorSpace
  xobject : σ → String → Option (XObject K σ)
  stateParameters : σ → String → Option (StateParameters K σ)
  shading : σ → String → Option (Shading K)
  pattern : σ → String → Option (Pattern K σ)
  properties : σ → String → Option (Dictionary K)

/-- The resources of one scope, listed by name. -/
structure Catalog (K σ : Type) where
  fonts : List (String × Font K σ) := []
  colorSpaces : List (String × ColorSpace) := []
  xobjects : List (String × XObject K σ) := []
  stateParameters : List (String × StateParameters K σ) := []
  shadings : List (String × Shading K) := []
  patterns : List (String × Pattern K σ) := []
  properties : List (String × Dictionary K) := []

/-- The entry of a name in a list. -/
def named? {α : Type} (entries : List (String × α)) (name : String) : Option α :=
  (entries.find? fun entry => entry.1 == name).map Prod.snd

/-- The resolver that looks into the catalog of each scope. -/
def Resolver.ofCatalogs {K σ : Type} (catalog : σ → Catalog K σ) : Resolver K σ where
  font scope := named? (catalog scope).fonts
  colorSpace scope := named? (catalog scope).colorSpaces
  xobject scope := named? (catalog scope).xobjects
  stateParameters scope := named? (catalog scope).stateParameters
  shading scope := named? (catalog scope).shadings
  pattern scope := named? (catalog scope).patterns
  properties scope := named? (catalog scope).properties

end PdfContent
