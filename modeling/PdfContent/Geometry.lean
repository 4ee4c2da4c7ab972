import PdfContent.Scalar

/-!
# Points, matrices and boxes

A matrix `[a b c d e f]` maps `(x, y)` to `(a·x + c·y + e, b·x + d·y + f)`. Points are row vectors, so
`m.concat n` applies `m` first, then `n`. A box is meant with `x0 ≤ x1` and `y0 ≤ y1`; `BBox.ofCorners`
makes one from any two opposite corners.
-/

namespace PdfContent

structure Point (K : Type) where
  x : K
  y : K
  deriving DecidableEq

structure Matrix (K : Type) where
  a : K
  b : K
  c : K
  d : K
  e : K
  f : K

structure BBox (K : Type) where
  x0 : K
  y0 : K
  x1 : K
  y1 : K
  deriving DecidableEq

variable {K : Type} [Scalar K]

namespace Matrix

def identity : Matrix K := ⟨1, 0, 0, 1, 0, 0⟩

/-- Moves points by `tx` and `ty`. -/
def shift (tx ty : K) : Matrix K := ⟨1, 0, 0, 1, tx, ty⟩

/-- Stretches by `sx` along the horizontal axis and by `sy` along the vertical one. -/
def scaling (sx sy : K) : Matrix K := ⟨sx, 0, 0, sy, 0, 0⟩

/-- The matrix with the given six entries. -/
def ofList? : List K → Option (Matrix K)
  | [a, b, c, d, e, f] => some ⟨a, b, c, d, e, f⟩
  | _ => none

/-- The map `m` followed by the map `n`. -/
def concat (m n : Matrix K) : Matrix K where
  a := m.a * n.a + m.b * n.c
  b := m.a * n.b + m.b * n.d
  c := m.c * n.a + m.d * n.c
  d := m.c * n.b + m.d * n.d
  e := m.e * n.a + m.f * n.c + n.e
  f := m.e * n.b + m.f * n.d + n.f

def applyPoint (m : Matrix K) (p : Point K) : Point K :=
  ⟨m.a * p.x + m.c * p.y + m.e, m.b * p.x + m.d * p.y + m.f⟩

/-- The image of a vector: the shift does not count. -/
def applyVector (m : Matrix K) (v : Point K) : Point K :=
  ⟨m.a * v.x + m.c * v.y, m.b * v.x + m.d * v.y⟩

/-- The length of the image of the horizontal unit vector. -/
def scaleX (m : Matrix K) : K :=
  if Scalar.same m.b 0 then Scalar.abs m.a else Scalar.hypot m.a m.b

/-- The length of the image of the vertical unit vector. -/
def scaleY (m : Matrix K) : K :=
  if Scalar.same m.c 0 then Scalar.abs m.d else Scalar.hypot m.c m.d

def determinant (m : Matrix K) : K := m.a * m.d - m.b * m.c

/-- The inverse map; none when the determinant is zero or out of range. -/
def inverse? (m : Matrix K) : Option (Matrix K) :=
  let det := m.determinant
  if Scalar.same det 0 || !Scalar.isFinite det then none
  else
    let a := m.d / det
    let b := -m.b / det
    let c := -m.c / det
    let d := m.a / det
    some ⟨a, b, c, d, -(m.e * a + m.f * c), -(m.e * b + m.f * d)⟩

/-- The six entries in order. -/
def toList (m : Matrix K) : List K := [m.a, m.b, m.c, m.d, m.e, m.f]

def same (m n : Matrix K) : Bool := Scalar.sameList m.toList n.toList

end Matrix

namespace Point

def same (p q : Point K) : Bool := Scalar.same p.x q.x && Scalar.same p.y q.y

end Point

namespace BBox

/-- The box with two given opposite corners. -/
def ofCorners (x0 y0 x1 y1 : K) : BBox K :=
  ⟨Scalar.least x0 x1, Scalar.least y0 y1, Scalar.greatest x0 x1, Scalar.greatest y0 y1⟩

def ofList? : List K → Option (BBox K)
  | [x0, y0, x1, y1] => some (ofCorners x0 y0 x1 y1)
  | _ => none

def width (b : BBox K) : K := b.x1 - b.x0

def height (b : BBox K) : K := b.y1 - b.y0

/-- The smallest box around both. -/
def union (b c : BBox K) : BBox K :=
  ⟨Scalar.least b.x0 c.x0, Scalar.least b.y0 c.y0, Scalar.greatest b.x1 c.x1,
    Scalar.greatest b.y1 c.y1⟩

/-- The corners, counter-clockwise from the lower left. -/
def corners (b : BBox K) : List (Point K) :=
  [⟨b.x0, b.y0⟩, ⟨b.x1, b.y0⟩, ⟨b.x1, b.y1⟩, ⟨b.x0, b.y1⟩]

/-- The smallest box around the images of the corners. -/
def transform (b : BBox K) (m : Matrix K) : BBox K :=
  let images := b.corners.map m.applyPoint
  let xs := images.map Point.x
  let ys := images.map Point.y
  ⟨Scalar.lowest xs, Scalar.lowest ys, Scalar.highest xs, Scalar.highest ys⟩

end BBox

end PdfContent
