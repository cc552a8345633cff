import Observatory.Proofs.Document.Fields
import Observatory.Space.Document

/-! Shapes that are written and read back.

A shape is read back from its document if its coordinates are real numbers, heights that are
not there included (`Geometry.restores`). -/
namespace Observatory
open Document

/-- The coordinates of a position. -/
def Point.doubles (p : Point Float) : List Float := p.x :: p.y :: p.z.toList

/-- The coordinates of all positions of a shape. -/
def Geometry.doubles : Geometry Float → List Float
  | point p => p.doubles
  | lineString points => points.flatMap Point.doubles
  | polygon ring => ring.flatMap Point.doubles

theorem Point.restores {p : Point Float} (hp : ∀ x ∈ p.doubles, Number.isFinite x = true) :
    Restores Point.toDocument Point.ofDocument? p where
  read := by
    obtain ⟨hx, hy, hz⟩ : Number.isFinite p.x = true ∧ Number.isFinite p.y = true ∧
        ∀ z ∈ p.z, Number.isFinite z = true := by
      simpa [Point.doubles] using hp
    unfold toDocument ofDocument?
    simp only [field_eq, fieldIfSome_eq, written_append, List.cons_append, List.nil_append]
    refine readsRecord rfl (by decide) fun fields h => ?_
    refine reads_then (required_of (restores_real hx) (h "x")) ?_
    refine reads_then (required_of (restores_real hy) (h "y")) ?_
    refine reads_then (optional_of (fun z hmem => restores_real (hz z hmem)) (h "z")) ?_
    rfl
  not_null := rfl

theorem restores_points {points : List (Point Float)}
    (h : ∀ x ∈ points.flatMap Point.doubles, Number.isFinite x = true) :
    Restores (ofList Point.toDocument) (listOf? Point.ofDocument?) points :=
  restores_list fun _ hp => Point.restores fun x hx => h x (List.mem_flatMap_of_mem hp hx)

/-- **A shape is read back from its document.** -/
theorem Geometry.restores {g : Geometry Float} (hg : ∀ x ∈ g.doubles, Number.isFinite x = true) :
    Restores Geometry.toDocument Geometry.ofDocument? g where
  read := by
    cases g with
    | point p => exact congrArg (Option.map Geometry.point) (Point.restores hg).read
    | lineString points => exact congrArg (Option.map Geometry.lineString) (restores_points hg).read
    | polygon ring => exact congrArg (Option.map Geometry.polygon) (restores_points hg).read
  not_null := rfl

end Observatory
