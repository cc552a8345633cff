import Observatory.Collection.SortedSet
import Observatory.Query.Column

/-! Sets of literals for membership tests.

Displayed sets stand in parentheses; texts are quoted, a quote inside being written
twice. -/
namespace Observatory

/-- A set of ids or a set of texts. -/
inductive ValueSet where
  | ids (values : SortedSet Id)
  | texts (values : SortedSet String)
deriving DecidableEq

namespace ValueSet

def isEmpty : ValueSet → Bool
  | ids values => values.isEmpty
  | texts values => values.isEmpty

/-- Whether the content of a cell is a member. Ids are members of sets of ids only,
texts of sets of texts only. -/
def contains (s : ValueSet) (c : Cell) : Bool :=
  match s, c with
  | ids values, .int id => values.contains id
  | texts values, .text t => values.contains t
  | _, _ => false

/-- The characters of a text with every quote written twice. -/
def doubleQuotes : List Char → List Char
  | [] => []
  | c :: rest => if c = '\x27' then c :: c :: doubleQuotes rest else c :: doubleQuotes rest

def literal (s : String) : String := String.ofList ('\x27' :: doubleQuotes s.toList ++ ['\x27'])

def literals : ValueSet → List String
  | ids values => values.toList.map fun id => toString id
  | texts values => values.toList.map literal

def display (s : ValueSet) : String := "(" ++ ", ".intercalate s.literals ++ ")"

end ValueSet
end Observatory
