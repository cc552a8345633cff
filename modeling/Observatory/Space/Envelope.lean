import Observatory.Number.Text
import Observatory.Text.Items

/-! Envelopes: upright rectangles.

The rules are the same for every kind of coordinate, so envelopes and shapes are
taken over any type that can be compared; doubles are one such type, and the text
forms belong to them. An envelope includes its border. -/
namespace Observatory

/-- The points between two corners. -/
structure Envelope (K : Type) where
  minX : K
  minY : K
  maxX : K
  maxY : K
deriving DecidableEq

namespace Envelope
section Order
variable {K : Type} [LT K] [DecidableLT K] [LE K] [DecidableLE K] [BEq K]

def ofPoint (x y : K) : Envelope K := ⟨x, y, x, y⟩

def intersects (a b : Envelope K) : Bool :=
  a.minX ≤ b.maxX && b.minX ≤ a.maxX && a.minY ≤ b.maxY && b.minY ≤ a.maxY

def containsPoint (e : Envelope K) (x y : K) : Bool :=
  e.minX ≤ x && x ≤ e.maxX && e.minY ≤ y && y ≤ e.maxY

/-- The smallest envelope around two. A coordinate that is not a number gives way to
one that is. -/
def union (a b : Envelope K) : Envelope K where
  minX := Number.lesser a.minX b.minX
  minY := Number.lesser a.minY b.minY
  maxX := Number.greater a.maxX b.maxX
  maxY := Number.greater a.maxY b.maxY

end Order

/-! ### Text -/

/-- Why a text is no envelope. -/
inductive ParseError where
  | invalidFormat (text : String)
  | invalidNumber (part : String)
  | invertedCorners (text : String)
deriving DecidableEq

def ParseError.message : ParseError → String
  | invalidFormat text => "Invalid bbox format: " ++ text ++ ". Expected 'minx,miny,maxx,maxy'"
  | invalidNumber part => "Invalid number in bbox: " ++ part
  | invertedCorners text => "Invalid bbox: lower corner exceeds upper corner in " ++ text

def parseCoordinate (part : String) : Except ParseError Float :=
  match Number.readFloat? part with
  | some x => .ok x
  | none => .error (.invalidNumber part)

/-- Reads the two corners, four numbers between commas, the lower corner first. The
corners are refused when one coordinate exceeds the other; something that is not a
number exceeds nothing. -/
def parse (s : String) : Except ParseError (Envelope Float) :=
  match Text.commaPieces s with
  | [a, b, c, d] => do
    let minX ← parseCoordinate a
    let minY ← parseCoordinate b
    let maxX ← parseCoordinate c
    let maxY ← parseCoordinate d
    if maxX < minX ∨ maxY < minY then .error (.invertedCorners s)
    else .ok ⟨minX, minY, maxX, maxY⟩
  | _ => .error (.invalidFormat s)

def display (e : Envelope Float) : String :=
  Number.display e.minX ++ "," ++ Number.display e.minY ++ "," ++ Number.display e.maxX ++ "," ++
    Number.display e.maxY

end Envelope
end Observatory
