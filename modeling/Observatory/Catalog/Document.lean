import Observatory.Catalog.Basic
import Observatory.Document.Yaml.Reader

/-! Reading catalogs. A catalog is a record of tables, each of which may be left out. -/
namespace Observatory.Catalog
open Document

def table? {α : Type} (fields : Fields) (name : String) (read? : Document → Option α) :
    Option (List α) := fields.orElse name [] (listOf? read?)

def fieldNames : List String := Dimension.all.map (·.collection) ++ ["datasets", "observations"]

def ofDocument? (d : Document) : Option Catalog := do
  let fields ← d.structure? fieldNames 0
  let entities (dimension : Dimension) := table? fields dimension.collection Entity.ofDocument?
  let offerings ← entities .offering
  let phenomena ← entities .phenomenon
  let procedures ← entities .procedure
  let features ← entities .feature
  let categories ← entities .category
  let platforms ← entities .platform
  let datasets ← table? fields "datasets" Dataset.ofDocument?
  let observations ← table? fields "observations" Measurement.ofDocument?
  return {
    entities := fun
      | .offering => offerings
      | .phenomenon => phenomena
      | .procedure => procedures
      | .feature => features
      | .category => categories
      | .platform => platforms
    datasets := datasets
    observations := observations }

def ofYaml (text : String) : Except Error Catalog :=
  match (Yaml.read? text).bind ofDocument? with
  | some c => .ok c
  | none => .error (.storage "Invalid catalog")

end Observatory.Catalog
