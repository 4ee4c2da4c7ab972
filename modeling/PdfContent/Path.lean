import PdfContent.Geometry

/-!
# Paths

A path is a list of segments. A `PathBuilder` is a path under construction: it also knows the current
point and where the current subpath started, so that closing a subpath moves the current point back
there.
-/

namespace PdfContent

inductive Segment (K : Type)
  | moveTo (p : Point K)
  | lineTo (p : Point K)
  | curveTo (control₁ control₂ stop : Point K)
  | close
  deriving DecidableEq

structure Path (K : Type) where
  segments : List (Segment K)
  deriving DecidableEq

structure PathBuilder (K : Type) where
  segments : List (Segment K)
  current : Option (Point K)
  subpathStart : Option (Point K)

variable {K : Type} [Scalar K]

/-- The points that a segment names, control points included. -/
def Segment.points : Segment K → List (Point K)
  | .moveTo p => [p]
  | .lineTo p => [p]
  | .curveTo p q r => [p, q, r]
  | .close => []

def Segment.same : Segment K → Segment K → Bool
  | .moveTo p, .moveTo q => p.same q
  | .lineTo p, .lineTo q => p.same q
  | .curveTo p q r, .curveTo p' q' r' => p.same p' && q.same q' && r.same r'
  | .close, .close => true
  | _, _ => false

namespace Path

def isEmpty (p : Path K) : Bool := p.segments.isEmpty

def same (p q : Path K) : Bool :=
  p.segments.length == q.segments.length &&
    (p.segments.zip q.segments).all fun pair => pair.1.same pair.2

/-- The smallest box around all points of the path, control points included. -/
def bounds? (p : Path K) : Option (BBox K) :=
  match p.segments.flatMap Segment.points with
  | [] => none
  | q :: rest =>
    some (rest.foldl (fun b r => b.union (BBox.ofCorners r.x r.y r.x r.y)) (BBox.ofCorners q.x q.y q.x q.y))

end Path

namespace PathBuilder

def empty : PathBuilder K := ⟨[], none, none⟩

/-- Appends one segment and moves the current point. -/
def push (b : PathBuilder K) (s : Segment K) (current : Option (Point K)) : PathBuilder K :=
  { b with segments := b.segments ++ [s], current }

def moveTo (b : PathBuilder K) (p : Point K) : PathBuilder K :=
  { b.push (.moveTo p) (some p) with subpathStart := some p }

def lineTo (b : PathBuilder K) (p : Point K) : PathBuilder K := b.push (.lineTo p) (some p)

def curveTo (b : PathBuilder K) (p q r : Point K) : PathBuilder K := b.push (.curveTo p q r) (some r)

/-- Closes the subpath; nothing happens before the first `moveTo`. -/
def close (b : PathBuilder K) : PathBuilder K :=
  match b.subpathStart with
  | none => b
  | some start => b.push .close (some start)

/-- Appends a closed polygon through four corners. -/
def quad (b : PathBuilder K) (p q r s : Point K) : PathBuilder K :=
  ((((b.moveTo p).lineTo q).lineTo r).lineTo s).close

def isEmpty (b : PathBuilder K) : Bool := b.segments.isEmpty

/-- The path that was built. -/
def path (b : PathBuilder K) : Path K := ⟨b.segments⟩

end PathBuilder

/-- The closed outline of a box under a map. -/
def Path.ofBox (b : BBox K) (m : Matrix K) : Path K :=
  let corner (x y : K) := m.applyPoint ⟨x, y⟩
  (PathBuilder.empty.quad (corner b.x0 b.y0) (corner b.x1 b.y0) (corner b.x1 b.y1) (corner b.x0 b.y1)).path

end PdfContent
