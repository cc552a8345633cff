import Observatory.Model.Dataset
import Observatory.Text.Blank
import Observatory.Text.Case
import Observatory.Text.Items

/-! Type keys.

The three kinds of a dataset together decide how its values are converted. The key
they form is the value kind, extended by `trajectory` for trajectory datasets and
else by the observation kind unless that is simple. Case and blanks around the kinds
do not matter. -/
namespace Observatory

/-- A key of the converter table, such as `quantity` or `text-complex`. -/
structure TypeKey where
  text : String
deriving DecidableEq

namespace TypeKey

/-- The key of three kinds. -/
def derive (datasetKind observationKind valueKind : String) : TypeKey :=
  let value := Text.lower (Text.trim valueKind)
  let dataset := Text.trim datasetKind
  let observation := Text.trim observationKind
  if Text.sameLetters dataset "trajectory" then ⟨value ++ "-" ++ "trajectory"⟩
  else if observation ≠ "" ∧ ¬ Text.sameLetters observation "simple" then
    ⟨value ++ "-" ++ Text.lower observation⟩
  else ⟨value⟩

def ofDataset (d : Dataset) : TypeKey := derive d.datasetKind d.observationKind d.valueKind

/-- A text up to its first hyphen. -/
def baseOf (s : String) : String := String.ofList (Text.cut '-' s.toList).1

/-- The value kind a key starts with. -/
def base (k : TypeKey) : String := baseOf k.text

end TypeKey
end Observatory
