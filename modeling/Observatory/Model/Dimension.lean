/-! Dimensions of the metadata.

A dataset refers to one entity of each of six dimensions; only the feature may be
missing. Each dimension has a name for one entity and a name for the collection. -/
namespace Observatory

/-- The id of a stored record. -/
abbrev Id := Int64

/-- What a dataset can be described by. -/
inductive Dimension where
  | offering
  | phenomenon
  | procedure
  | feature
  | category
  | platform
deriving DecidableEq, Repr

namespace Dimension

def all : List Dimension := [offering, phenomenon, procedure, feature, category, platform]

/-- The name of one entity. -/
def name : Dimension → String
  | offering => "offering"
  | phenomenon => "phenomenon"
  | procedure => "procedure"
  | feature => "feature"
  | category => "category"
  | platform => "platform"

/-- The name of the collection of entities. -/
def collection : Dimension → String
  | offering => "offerings"
  | phenomenon => "phenomena"
  | procedure => "procedures"
  | feature => "features"
  | category => "categories"
  | platform => "platforms"

def ofName? (s : String) : Option Dimension := all.find? (·.name == s)

def ofCollection? (s : String) : Option Dimension := all.find? (·.collection == s)

theorem mem_all (d : Dimension) : d ∈ all := by cases d <;> decide

theorem ofName?_name (d : Dimension) : ofName? d.name = some d := by cases d <;> decide

theorem ofCollection?_collection (d : Dimension) : ofCollection? d.collection = some d := by
  cases d <;> decide

end Dimension
end Observatory
