import Observatory.Space.Geometry
import Observatory.Document.Basic

/-! Shapes in documents.

A shape is written as its `type` with its `coordinates`, a position as a record of
its coordinates. -/
namespace Observatory
open Document

def Point.toDocument (p : Point Float) : Document :=
  .record (field "x" (ofFloat p.x) ++ field "y" (ofFloat p.y) ++ fieldIfSome "z" ofFloat p.z)

def Point.ofDocument? (d : Document) : Option (Point Float) := do
  let fields ← d.structure? ["x", "y", "z"] 2
  let x ← fields.required "x" real?
  let y ← fields.required "y" real?
  let z ← fields.optional "z" real?
  return ⟨x, y, z⟩

def Geometry.kindName : Geometry Float → String
  | point _ => "Point"
  | lineString _ => "LineString"
  | polygon _ => "Polygon"

def Geometry.toDocument (g : Geometry Float) : Document :=
  let coordinates := match g with
    | point p => p.toDocument
    | lineString points => ofList Point.toDocument points
    | polygon ring => ofList Point.toDocument ring
  .record (field "type" (.text g.kindName) ++ field "coordinates" coordinates)

/-- Reads the coordinates of a kind of shape. -/
def Geometry.ofCoordinates? (kind : String) (d : Document) : Option (Geometry Float) :=
  if kind = "Point" then (Point.ofDocument? d).map .point
  else if kind = "LineString" then (d.listOf? Point.ofDocument?).map .lineString
  else if kind = "Polygon" then (d.listOf? Point.ofDocument?).map .polygon
  else none

/-- The value of the field that goes with a tag field. Where it stands before the
tag its plain scalars are given their types before anything is known of it. -/
def Document.Fields.tagged? (fields : Fields) (tag content : String) : Option Document :=
  let before := fields.takeWhile fun f => f.1 != tag
  match before.lookup content with
  | some d => d.resolve?
  | none => fields.lookup content

def Geometry.ofDocument? (d : Document) : Option (Geometry Float) := do
  let fields ← d.structure? ["type", "coordinates"] 2
  let kind ← fields.required "type" text?
  ofCoordinates? kind (← fields.tagged? "type" "coordinates")

def Envelope.toDocument (e : Envelope Float) : Document :=
  .record (field "min_x" (ofFloat e.minX) ++ field "min_y" (ofFloat e.minY) ++
    field "max_x" (ofFloat e.maxX) ++ field "max_y" (ofFloat e.maxY))

def Envelope.ofDocument? (d : Document) : Option (Envelope Float) := do
  let fields ← d.structure? ["min_x", "min_y", "max_x", "max_y"] 4
  let minX ← fields.required "min_x" real?
  let minY ← fields.required "min_y" real?
  let maxX ← fields.required "max_x" real?
  let maxY ← fields.required "max_y" real?
  return ⟨minX, minY, maxX, maxY⟩

end Observatory
