import Observatory.Collection.SortedMap
import Observatory.Model.Dimension
import Observatory.Space.Document

/-! Entities that describe datasets.

An entity has a domain identifier, such as a station code, beside its id. Procedures
may have parents, features a shape. -/
namespace Observatory
open Document

/-- An offering, phenomenon, procedure, feature, category or platform. -/
structure Entity where
  id : Id
  identifier : String
  name : Option String
  /-- Labels by locale. -/
  translations : SortedMap String String
  parents : List Id
  geometry : Option (Geometry Float)

namespace Entity

/-- The label in a locale: the translation, else the name, else the identifier. -/
def label (e : Entity) (locale : String) : String :=
  match e.translations.find? locale with
  | some translation => translation
  | none => e.name.getD e.identifier

/-- Whether a parent is named, stored or not. -/
def hasParents (e : Entity) : Bool := !e.parents.isEmpty

/-! ### Documents -/

def toDocument (e : Entity) : Document :=
  let translations :=
    if e.translations.isEmpty then []
    else field "translations" (.record (e.translations.entries.map fun t => (t.1, .text t.2)))
  .record (
    field "id" (.integer e.id.toInt) ++
    field "identifier" (.text e.identifier) ++
    fieldIfSome "name" .text e.name ++
    translations ++
    fieldIfAny "parents" (fun id => .integer id.toInt) e.parents ++
    fieldIfSome "geometry" Geometry.toDocument e.geometry)

def translationsOf? (d : Document) : Option (SortedMap String String) := do
  let entries ← (← d.fields?).mapM fun f => (text? f.2).map fun label => (f.1, label)
  return SortedMap.ofList entries

def ofDocument? (d : Document) : Option Entity := do
  let fields ← d.structure? ["id", "identifier", "name", "translations", "parents", "geometry"] 2
  let id ← fields.required "id" int64?
  let identifier ← fields.required "identifier" text?
  let name ← fields.optional "name" text?
  let translations ← fields.orElse "translations" ∅ translationsOf?
  let parents ← fields.orElse "parents" [] (listOf? int64?)
  let geometry ← fields.optional "geometry" Geometry.ofDocument?
  return { id, identifier, name, translations, parents, geometry }

end Entity
end Observatory
