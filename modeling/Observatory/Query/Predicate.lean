import Observatory.Query.ValueSet

/-! Conditions on rows.

A predicate is a tree of conditions. Conditions on a cell are false where the cell is
null or of another type. One condition asks whether an id is among those that the
datasets matching an inner predicate refer to; a resolver answers it, and binding
replaces it by the set of ids that the resolver gives. -/
namespace Observatory

/-- A condition on rows. -/
inductive Predicate where
  | always
  | never
  | and (parts : List Predicate)
  | or (parts : List Predicate)
  | not (part : Predicate)
  | isNotNull (column : Column)
  | flag (column : Column) (value : Bool)
  | isIn (column : Column) (values : ValueSet)
  | intersects (column : Column) (envelope : Envelope Float)
  | within (column : Column) (interval : TimeInterval)
  /-- The id is one of those that the datasets matching the filter have for a
  dimension. -/
  | inSubquery (column : Column) (projection : Dimension) (filter : Predicate)

/-- Answers for a dimension and a filter on datasets: the ids that the matching
datasets have for the dimension. -/
abbrev Resolver := Dimension → Predicate → SortedSet Id

namespace Predicate

/-- The resolver that finds no datasets. -/
def noSubqueries : Resolver := fun _ _ => ∅

/-- Whether there is no restriction. -/
def isAlways : Predicate → Bool
  | always => true
  | _ => false

/-! ### Combination -/

/-- The parts of a conjunction of predicates, conjunctions among them taken apart
and those that always hold left out; none if one of them never holds. -/
def allParts? : List Predicate → Option (List Predicate)
  | [] => some []
  | always :: rest => allParts? rest
  | never :: _ => none
  | and parts :: rest => (allParts? rest).map (parts ++ ·)
  | p :: rest => (allParts? rest).map (p :: ·)

/-- The conjunction of predicates, as small as its parts allow. -/
def all (ps : List Predicate) : Predicate :=
  match allParts? ps with
  | none => never
  | some [] => always
  | some [p] => p
  | some parts => and parts

/-- The parts of a disjunction of predicates, disjunctions among them taken apart
and those that never hold left out; none if one of them always holds. -/
def anyParts? : List Predicate → Option (List Predicate)
  | [] => some []
  | never :: rest => anyParts? rest
  | always :: _ => none
  | or parts :: rest => (anyParts? rest).map (parts ++ ·)
  | p :: rest => (anyParts? rest).map (p :: ·)

/-- The disjunction of predicates, as small as its parts allow. -/
def any (ps : List Predicate) : Predicate :=
  match anyParts? ps with
  | none => always
  | some [] => never
  | some [p] => p
  | some parts => or parts

/-- The negation of a predicate; a negation is taken away rather than doubled. -/
def negate : Predicate → Predicate
  | always => never
  | never => always
  | not p => p
  | p => not p

/-- The conjunction of the predicates that are there. -/
def allOf (ps : List (Option Predicate)) : Predicate := all (ps.filterMap id)

/-! ### Evaluation -/

/-- Whether a cell with an id is in a set of ids. -/
def holdsId (cell : Cell) (ids : SortedSet Id) : Bool :=
  match cell with
  | .int id => ids.contains id
  | _ => false

mutual

/-- Whether a row satisfies the predicate. -/
def evaluate (resolver : Resolver) (row : Row) : Predicate → Bool
  | always => true
  | never => false
  | and parts => evaluateAll resolver row parts
  | or parts => evaluateAny resolver row parts
  | not p => !evaluate resolver row p
  | isNotNull column => !(row column).isNull
  | flag column value =>
    match row column with
    | .bool b => b == value
    | _ => false
  | isIn column values => values.contains (row column)
  | intersects column envelope =>
    match row column with
    | .geometry g => g.intersects envelope
    | _ => false
  | within column interval =>
    match row column with
    | .time t => interval.contains t
    | _ => false
  | inSubquery column projection filter => holdsId (row column) (resolver projection filter)

def evaluateAll (resolver : Resolver) (row : Row) : List Predicate → Bool
  | [] => true
  | p :: rest => evaluate resolver row p && evaluateAll resolver row rest

def evaluateAny (resolver : Resolver) (row : Row) : List Predicate → Bool
  | [] => false
  | p :: rest => evaluate resolver row p || evaluateAny resolver row rest

end

/-! ### Binding -/

/-- Membership in a set of ids; an empty set holds nothing. -/
def ofIds (column : Column) (ids : SortedSet Id) : Predicate :=
  if ids.isEmpty then never else isIn column (.ids ids)

mutual

/-- Replaces every subquery by the ids that are found for it, given its dimension,
its filter and its filter with the subqueries inside replaced in turn. -/
def bindWith (find : Dimension → Predicate → Predicate → SortedSet Id) : Predicate → Predicate
  | and parts => all (bindAllWith find parts)
  | or parts => any (bindAllWith find parts)
  | not p => negate (bindWith find p)
  | inSubquery column projection filter =>
    ofIds column (find projection filter (bindWith find filter))
  | always => always
  | never => never
  | isNotNull column => isNotNull column
  | flag column value => flag column value
  | isIn column values => isIn column values
  | intersects column envelope => intersects column envelope
  | within column interval => within column interval

def bindAllWith (find : Dimension → Predicate → Predicate → SortedSet Id) :
    List Predicate → List Predicate
  | [] => []
  | p :: rest => bindWith find p :: bindAllWith find rest

end

/-- Replaces every subquery by the ids that a resolver gives, so that many rows can
be looked at with one answer. -/
def bind (resolver : Resolver) (p : Predicate) : Predicate :=
  bindWith (fun projection filter _ => resolver projection filter) p

end Predicate
end Observatory
