import Observatory.Space.Envelope

/-! Shapes and their intersection with an envelope.

A shape is a point, a line through points or a polygon given by one ring, which may
be closed explicitly or not. A line meets an envelope when a vertex lies inside or a
segment crosses a side; a polygon also when the envelope lies inside its ring, which
one corner decides by the even-odd rule. -/
namespace Observatory

/-- A position with an optional height. -/
structure Point (K : Type) where
  x : K
  y : K
  z : Option K
deriving DecidableEq

/-- A shape in the plane; heights play no part. -/
inductive Geometry (K : Type) where
  | point (position : Point K)
  | lineString (points : List (Point K))
  | polygon (ring : List (Point K))
deriving DecidableEq

namespace Point
variable {K : Type}

/-- Whether two positions agree in every coordinate, height included. -/
def agrees [BEq K] (p q : Point K) : Bool := p.x == q.x && p.y == q.y && p.z == q.z

def envelope (p : Point K) : Envelope K := Envelope.ofPoint p.x p.y

end Point

namespace Envelope
variable {K : Type}

/-- The four sides, counterclockwise from the lower left corner. -/
def sides (e : Envelope K) : List (Point K × Point K) :=
  [(⟨e.minX, e.minY, none⟩, ⟨e.maxX, e.minY, none⟩), (⟨e.maxX, e.minY, none⟩, ⟨e.maxX, e.maxY, none⟩),
    (⟨e.maxX, e.maxY, none⟩, ⟨e.minX, e.maxY, none⟩), (⟨e.minX, e.maxY, none⟩, ⟨e.minX, e.minY, none⟩)]

end Envelope

namespace Geometry
section Segments
variable {K : Type} [LT K] [DecidableLT K] [LE K] [DecidableLE K] [BEq K] [Sub K] [Mul K] [OfNat K 0]

/-- Twice the signed area of a triangle: positive when its corners turn to the
left, zero when they lie on a line. -/
def orientation (a b c : Point K) : K := (b.x - a.x) * (c.y - a.y) - (b.y - a.y) * (c.x - a.x)

/-- Whether a point lies in the rectangle spanned by two others. For a point on
their line this says that it lies on their segment. -/
def inSpan (a b p : Point K) : Bool :=
  Number.lesser a.x b.x ≤ p.x && p.x ≤ Number.greater a.x b.x &&
    Number.lesser a.y b.y ≤ p.y && p.y ≤ Number.greater a.y b.y

/-- Whether two numbers have opposite signs. -/
def opposite (a b : K) : Bool := (0 < a && b < 0) || (a < 0 && 0 < b)

/-- Whether two closed segments have a point in common: they cross, or an end of one
lies on the other. -/
def segmentsIntersect (p₁ p₂ q₁ q₂ : Point K) : Bool :=
  let d₁ := orientation q₁ q₂ p₁
  let d₂ := orientation q₁ q₂ p₂
  let d₃ := orientation p₁ p₂ q₁
  let d₄ := orientation p₁ p₂ q₂
  (opposite d₁ d₂ && opposite d₃ d₄) || (d₁ == 0 && inSpan q₁ q₂ p₁) || (d₂ == 0 && inSpan q₁ q₂ p₂) ||
    (d₃ == 0 && inSpan p₁ p₂ q₁) || (d₄ == 0 && inSpan p₁ p₂ q₂)

end Segments

/-- The segments between consecutive points. -/
def segments {K : Type} (points : List (Point K)) : List (Point K × Point K) :=
  points.zip points.tail

/-- The ring with its first point repeated at the end, unless it ends there already. -/
def closeRing {K : Type} [BEq K] (ring : List (Point K)) : List (Point K) :=
  match ring.head?, ring.getLast? with
  | some first, some last => if first.agrees last then ring else ring ++ [first]
  | _, _ => ring

/-- The edges of a ring, each point with the one before it; before the first comes
the last. -/
def ringEdges {K : Type} (ring : List (Point K)) : List (Point K × Point K) :=
  match ring.getLast? with
  | some last => ring.zip (last :: ring)
  | none => []

section Hits
variable {K : Type} [LT K] [DecidableLT K] [LE K] [DecidableLE K] [BEq K]
  [Add K] [Sub K] [Mul K] [Div K] [OfNat K 0]

/-- Whether a line through points meets an envelope. -/
def pathIntersects (points : List (Point K)) (e : Envelope K) : Bool :=
  points.any (fun p => e.containsPoint p.x p.y) ||
    (segments points).any fun s => e.sides.any fun t => segmentsIntersect s.1 s.2 t.1 t.2

/-- Whether an edge crosses the ray that goes from a point to the right. -/
def crossesRay (a b : Point K) (x y : K) : Bool :=
  (decide (y < a.y) != decide (y < b.y)) && x < (b.x - a.x) * (y - a.y) / (b.y - a.y) + a.x

/-- Whether a point lies inside a ring by the even-odd rule. -/
def ringContains (ring : List (Point K)) (x y : K) : Bool :=
  (ringEdges ring).foldl (fun inside edge => if crossesRay edge.1 edge.2 x y then !inside else inside)
    false

/-- The smallest envelope around a list of points. -/
def envelopeOf? : List (Point K) → Option (Envelope K)
  | [] => none
  | first :: rest => some (rest.foldl (fun e p => e.union p.envelope) first.envelope)

/-- The smallest envelope around a shape; none if it has no points. -/
def envelope? : Geometry K → Option (Envelope K)
  | point p => some p.envelope
  | lineString points => envelopeOf? points
  | polygon ring => envelopeOf? ring

/-- Whether a shape whose own envelope meets an envelope meets it itself. -/
def hits (g : Geometry K) (e : Envelope K) : Bool :=
  match g with
  | point p => e.containsPoint p.x p.y
  | lineString points => pathIntersects points e
  | polygon ring => pathIntersects (closeRing ring) e || ringContains ring e.minX e.minY

/-- Whether a shape meets an envelope, border included. -/
def intersects (g : Geometry K) (e : Envelope K) : Bool :=
  match g.envelope? with
  | some own => own.intersects e && g.hits e
  | none => false

end Hits
end Geometry
end Observatory
