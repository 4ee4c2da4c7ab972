import PdfContent.Scalar

/-!
# Colours and colour spaces

A colour space says how many components a colour has and how they become a colour that a device knows.
Components are in single precision. Missing components count as zero.
-/

namespace PdfContent

inductive Color (K : Type)
  | gray (g : K)
  | rgb (r g b : K)
  | cmyk (c m y k : K)
  /-- A colour whose components need their space. -/
  | other (components : List K)
  /-- A pattern, and the components that an uncoloured one is painted with. -/
  | pattern (name : Option String) (components : List K)

/-- Families of colour spaces. -/
inductive ColorSpace
  | deviceGray
  | deviceRGB
  | deviceCMYK
  | calGray
  | calRGB
  | lab
  | iccBased (count : Nat) (alternate : ColorSpace)
  | indexed (base : ColorSpace) (high : Nat) (table : List UInt8)
  | separation (colorant : String) (alternate : ColorSpace)
  | deviceN (colorants : List String) (alternate : ColorSpace)
  /-- Patterns, and the space that uncoloured ones take their components from. -/
  | pattern (underlying : Option ColorSpace)
  deriving BEq

variable {K : Type} [Scalar K]

namespace Color

def black : Color K := .gray 0

def components : Color K → List K
  | .gray g => [g]
  | .rgb r g b => [r, g, b]
  | .cmyk c m y k => [c, m, y, k]
  | .other cs => cs
  | .pattern _ cs => cs

def patternName? : Color K → Option String
  | .pattern name _ => name
  | _ => none

def isPattern : Color K → Bool
  | .pattern _ _ => true
  | _ => false

def same : Color K → Color K → Bool
  | .gray g, .gray h => Scalar.same g h
  | .rgb r g b, .rgb r' g' b' => Scalar.sameList [r, g, b] [r', g', b']
  | .cmyk c m y k, .cmyk c' m' y' k' => Scalar.sameList [c, m, y, k] [c', m', y', k']
  | .other cs, .other ds => Scalar.sameList cs ds
  | .pattern n cs, .pattern n' ds => n == n' && Scalar.sameList cs ds
  | _, _ => false

end Color

namespace ColorSpace

/-- The spaces that a page may name without defining them. -/
def ofDeviceName? : String → Option ColorSpace
  | "DeviceGray" => some .deviceGray
  | "DeviceRGB" => some .deviceRGB
  | "DeviceCMYK" => some .deviceCMYK
  | "Pattern" => some (.pattern none)
  | _ => none

/-- The names that an inline image may use, abbreviations included. -/
def ofInlineName? : String → Option ColorSpace
  | "G" => some .deviceGray
  | "RGB" => some .deviceRGB
  | "CMYK" => some .deviceCMYK
  | name => ofDeviceName? name

def componentCount : ColorSpace → Nat
  | .deviceGray => 1
  | .calGray => 1
  | .deviceRGB => 3
  | .calRGB => 3
  | .lab => 3
  | .deviceCMYK => 4
  | .iccBased count _ => count
  | .indexed _ _ _ => 1
  | .separation _ _ => 1
  | .deviceN colorants _ => colorants.length
  | .pattern none => 0
  | .pattern (some base) => base.componentCount

def isPattern : ColorSpace → Bool
  | .pattern _ => true
  | _ => false

/-- `1 - x` in single precision. -/
def complement (x : K) : K := Scalar.single (1 - x)

/-- The colour with the given components. An indexed space looks its colour up in its table; a tint of
a separation darkens the alternate space. -/
def color : ColorSpace → List K → Color K
  | .deviceGray, cs => .gray (cs.getD 0 0)
  | .calGray, cs => .gray (cs.getD 0 0)
  | .deviceRGB, cs => .rgb (cs.getD 0 0) (cs.getD 1 0) (cs.getD 2 0)
  | .calRGB, cs => .rgb (cs.getD 0 0) (cs.getD 1 0) (cs.getD 2 0)
  | .deviceCMYK, cs => .cmyk (cs.getD 0 0) (cs.getD 1 0) (cs.getD 2 0) (cs.getD 3 0)
  | .lab, cs => .other [cs.getD 0 0, cs.getD 1 0, cs.getD 2 0]
  | .iccBased _ alternate, cs => alternate.color cs
  | .deviceN _ alternate, cs => alternate.color cs
  | .indexed base high table, cs =>
    let asked := (Scalar.clampInt 0 (0xFFFFFFFF) (Scalar.greatest (cs.getD 0 0) 0)).toNat
    let size := base.componentCount
    let start := min asked high * size
    if start + size ≤ table.length then
      base.color (((table.drop start).take size).map fun byte =>
        Scalar.single (Scalar.ofNat byte.toNat / Scalar.ofNat 255))
    else .other cs
  | .separation _ alternate, cs =>
    let tint := cs.getD 0 0
    match alternate with
    | .deviceGray => .gray (complement tint)
    | .deviceRGB => .rgb (complement tint) (complement tint) (complement tint)
    | .deviceCMYK => .cmyk 0 0 0 tint
    | _ => .other cs
  | .pattern _, cs => .pattern none cs

/-- The colour that selecting the space sets. -/
def initialColor (space : ColorSpace) : Color K :=
  match space with
  | .deviceCMYK => .cmyk 0 0 0 1
  | .indexed _ _ _ => space.color [0]
  | .separation _ _ => space.color (List.replicate space.componentCount 1)
  | .deviceN _ _ => space.color (List.replicate space.componentCount 1)
  | .pattern _ => .pattern none []
  | _ => space.color (List.replicate space.componentCount 0)

end ColorSpace

end PdfContent
