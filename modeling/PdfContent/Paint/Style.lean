import PdfContent.Path

/-!
# Strokes, fills, blending and clipping

The parameters that say how paths and text are painted, each with the names and numbers that stand for
it in a page description. A clip is the list of regions whose intersection may be painted: clipping
again adds a region at the end and never takes one away.
-/

namespace PdfContent

inductive FillRule
  | nonZero
  | evenOdd
  deriving DecidableEq, Repr

def FillRule.label : FillRule → String
  | .nonZero => "nonzero"
  | .evenOdd => "evenodd"

inductive LineCap
  | butt
  | round
  | projectingSquare
  deriving DecidableEq, Repr

def LineCap.ofInt? : Int → Option LineCap
  | 0 => some .butt
  | 1 => some .round
  | 2 => some .projectingSquare
  | _ => none

inductive LineJoin
  | miter
  | round
  | bevel
  deriving DecidableEq, Repr

def LineJoin.ofInt? : Int → Option LineJoin
  | 0 => some .miter
  | 1 => some .round
  | 2 => some .bevel
  | _ => none

/-- The lengths of dashes and gaps in turn, and how far into them a stroke starts. -/
structure DashPattern (K : Type) where
  lengths : List K
  phase : K

namespace DashPattern

variable {K : Type} [Scalar K]

def solid : DashPattern K := ⟨[], 0⟩

def isSolid (d : DashPattern K) : Bool := d.lengths.isEmpty

def same (d e : DashPattern K) : Bool := Scalar.sameList d.lengths e.lengths && Scalar.same d.phase e.phase

end DashPattern

/-- The intents of the standard, and any other name as it was given. -/
inductive RenderingIntent
  | absoluteColorimetric
  | relativeColorimetric
  | saturation
  | perceptual
  | other (name : String)
  deriving DecidableEq, Repr

def RenderingIntent.ofName : String → RenderingIntent
  | "AbsoluteColorimetric" => .absoluteColorimetric
  | "RelativeColorimetric" => .relativeColorimetric
  | "Saturation" => .saturation
  | "Perceptual" => .perceptual
  | name => .other name

inductive BlendMode
  | normal
  | multiply
  | screen
  | overlay
  | darken
  | lighten
  | colorDodge
  | colorBurn
  | hardLight
  | softLight
  | difference
  | exclusion
  | hue
  | saturation
  | color
  | luminosity
  deriving DecidableEq, Repr

namespace BlendMode

/-- The modes with their names; `Compatible` is an older name of the first. -/
def names : List (BlendMode × String) :=
  [(.normal, "Normal"), (.multiply, "Multiply"), (.screen, "Screen"), (.overlay, "Overlay"),
    (.darken, "Darken"), (.lighten, "Lighten"), (.colorDodge, "ColorDodge"), (.colorBurn, "ColorBurn"),
    (.hardLight, "HardLight"), (.softLight, "SoftLight"), (.difference, "Difference"),
    (.exclusion, "Exclusion"), (.hue, "Hue"), (.saturation, "Saturation"), (.color, "Color"),
    (.luminosity, "Luminosity")]

def ofName? (name : String) : Option BlendMode :=
  if name == "Compatible" then some .normal
  else (names.find? (fun entry => entry.2 == name)).map Prod.fst

def name (mode : BlendMode) : String :=
  ((names.find? (fun entry => entry.1 == mode)).map Prod.snd).getD ""

end BlendMode

/-- A mask that transparency is drawn through. The backdrop is in single precision. -/
structure SoftMask (K : Type) where
  subtype : String
  backdrop : Option (List K)

/-- Numerical equality of two masks. -/
def SoftMask.same {K : Type} [Scalar K] (m n : SoftMask K) : Bool :=
  m.subtype == n.subtype &&
    match m.backdrop, n.backdrop with
    | none, none => true
    | some xs, some ys => Scalar.sameList xs ys
    | _, _ => false

structure ClipRegion (K : Type) where
  path : Path K
  rule : FillRule
  deriving DecidableEq

/-- The regions of a clip in the order in which they were added; without a region all may be
painted. -/
structure Clip (K : Type) where
  regions : List (ClipRegion K)

namespace Clip

variable {K : Type}

/-- No restriction. -/
def unrestricted : Clip K := ⟨[]⟩

/-- The clip with one more region. -/
def intersect (c : Clip K) (path : Path K) (rule : FillRule) : Clip K := ⟨c.regions ++ [⟨path, rule⟩]⟩

def same [Scalar K] (c d : Clip K) : Bool :=
  c.regions.length == d.regions.length &&
    (c.regions.zip d.regions).all fun pair => pair.1.path.same pair.2.path && pair.1.rule == pair.2.rule

@[simp] theorem regions_intersect (c : Clip K) (path : Path K) (rule : FillRule) :
    (c.intersect path rule).regions = c.regions ++ [⟨path, rule⟩] := rfl

theorem regions_prefix_intersect (c : Clip K) (path : Path K) (rule : FillRule) :
    c.regions <+: (c.intersect path rule).regions := ⟨_, rfl⟩

end Clip

end PdfContent
