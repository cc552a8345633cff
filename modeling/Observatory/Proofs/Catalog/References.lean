import Observatory.Catalog.Basic
import Observatory.Proofs.Catalog.Records

/-! What ids and references stand for.

An id stands for the first entity that its table holds under it (`StoredUnder`), and a
reference of a dataset for what its id stands for (`RefersTo`). Ids may repeat and need not
lead anywhere, so there is one such entity at most. Looking up comes to the same
(`entity?_eq_some_iff`, `referenced?_eq_some_iff`). -/
namespace Observatory.Catalog
open Records (IsFirst)

/-- The first entity of a dimension that is stored with an id. -/
def StoredUnder (c : Catalog) (dimension : Dimension) (id : Id) (e : Entity) : Prop :=
  IsFirst (·.id) id (c.entities dimension) e

/-- A dataset refers to an entity: it names an id, and the entity is the first stored with it. -/
def RefersTo (c : Catalog) (d : Dataset) (dimension : Dimension) (e : Entity) : Prop :=
  ∃ id, d.reference? dimension = some id ∧ c.StoredUnder dimension id e

/-- A dataset refers to an entity with that domain identifier. -/
def IdentifiedBy (c : Catalog) (d : Dataset) (dimension : Dimension) (key : String) : Prop :=
  ∃ e, c.RefersTo d dimension e ∧ e.identifier = key

variable {c : Catalog} {d : Dataset} {dimension : Dimension} {id : Id} {e : Entity}

theorem StoredUnder.id_eq (h : c.StoredUnder dimension id e) : e.id = id := h.key_eq

theorem StoredUnder.mem (h : c.StoredUnder dimension id e) : e ∈ c.entities dimension := IsFirst.mem h

/-- What is stored under an id is stored under its own. -/
theorem StoredUnder.own (h : c.StoredUnder dimension id e) : c.StoredUnder dimension e.id e :=
  h.id_eq.symm ▸ h

theorem StoredUnder.unique {other : Entity} (h : c.StoredUnder dimension id e)
    (h' : c.StoredUnder dimension id other) : e = other := IsFirst.unique h h'

theorem RefersTo.unique {other : Entity} (h : c.RefersTo d dimension e)
    (h' : c.RefersTo d dimension other) : e = other := by
  obtain ⟨id, hid, he⟩ := h
  obtain ⟨id', hid', hother⟩ := h'
  obtain rfl := Option.some.inj (hid.symm.trans hid')
  exact he.unique hother

/-- A dataset that refers to an entity is identified by that one's identifier only. -/
theorem RefersTo.identifiedBy_iff (h : c.RefersTo d dimension e) {key : String} :
    c.IdentifiedBy d dimension key ↔ e.identifier = key := by
  constructor
  · intro ⟨other, hother, hkey⟩
    rw [h.unique hother, hkey]
  · intro hkey
    exact ⟨e, h, hkey⟩

theorem exists_storedUnder_iff :
    (∃ e, c.StoredUnder dimension id e) ↔ ∃ e ∈ c.entities dimension, e.id = id :=
  Records.exists_isFirst_iff

/-! ### Looking up -/

theorem entity?_eq_some_iff : c.entity? dimension id = some e ↔ c.StoredUnder dimension id e :=
  Records.find?_eq_some_iff

theorem entity?_eq_none_iff : c.entity? dimension id = none ↔ ∀ e ∈ c.entities dimension, e.id ≠ id := by
  unfold entity?
  rw [List.find?_eq_none]
  simp only [beq_iff_eq, ne_eq]

theorem referenced?_eq_some_iff : c.referenced? d dimension = some e ↔ c.RefersTo d dimension e := by
  unfold referenced? RefersTo
  rw [Option.bind_eq_some_iff]
  simp only [entity?_eq_some_iff]

theorem identifier_eq_some_iff {key : String} :
    (c.referenced? d dimension).map (·.identifier) = some key ↔ c.IdentifiedBy d dimension key := by
  unfold IdentifiedBy
  rw [Option.map_eq_some_iff]
  simp only [referenced?_eq_some_iff]

instance : DecidablePred (c.IdentifiedBy d dimension) := fun _ =>
  decidable_of_iff _ identifier_eq_some_iff

instance {P : Entity → Prop} [DecidablePred P] : Decidable (∃ e, c.RefersTo d dimension e ∧ P e) :=
  decidable_of_iff (∃ e ∈ c.referenced? d dimension, P e) <| by
    simp only [Option.mem_def, referenced?_eq_some_iff]

end Observatory.Catalog
