import Observatory.Catalog.Store
import Observatory.Service.Output

/-! Parents and ancestors.

Entities may name parents, procedures do. The links need not lead anywhere and may run
in circles: links to missing entities are skipped, and no entity is visited twice. -/
namespace Observatory.Hierarchy

/-- An entity that may be missing; other failures stay failures. -/
def ifFound {α : Type} : Except Error α → Except Error (Option α)
  | .ok a => .ok (some a)
  | .error (.notFound _) => .ok none
  | .error e => .error e

/-- The parents that exist, in the order in which they are named. -/
def loadParents (store : Store) (dimension : Dimension) (e : Entity) : Except Error (List Entity) := do
  let parents ← e.parents.mapM fun id => ifFound (store.findEntity dimension id)
  return parents.filterMap id

/-- The parents of an entity in short. One that names none is its own parent. -/
def parentsOf (store : Store) (dimension : Dimension) (e : Entity) (options : Options) :
    Except Error (SortedSet CondensedEntity) :=
  if e.hasParents then do
    let parents ← loadParents store dimension e
    return SortedSet.ofList (parents.map fun p => .of p dimension options)
  else .ok (SortedSet.ofList [.of e dimension options])

/-- The entities of a list that were not visited, each once, and what is visited
after them. -/
def fresh (visited : List Id) : List Entity → List Entity × List Id
  | [] => ([], visited)
  | e :: rest =>
    if visited.contains e.id then fresh visited rest
    else
      let (more, visited) := fresh (e.id :: visited) rest
      (e :: more, visited)

/-- The parents of all entities of a level that were not visited, and what is visited
after them. -/
def nextLevel (store : Store) (dimension : Dimension) (level : List Entity) (visited : List Id) :
    Except Error (List Entity × List Id) := do
  let parents ← level.mapM (loadParents store dimension)
  return fresh visited parents.flatten

/-- What is found round by round, going up from a level: in each round the parents, not
visited before, of what the round before found. A round that finds nothing is the last. -/
def roundsAbove (store : Store) (dimension : Dimension) :
    Nat → List Entity → List Id → Except Error (List (List Entity))
  | 0, _, _ => .ok []
  | depth + 1, level, visited => do
    let (next, visited) ← nextLevel store dimension level visited
    if next.isEmpty then return [next]
    else return next :: (← roundsAbove store dimension depth next visited)

/-- The ancestors of an entity, nearest first, without the entity itself. -/
def ancestorsOf (store : Store) (maxDepth : Nat) (dimension : Dimension) (e : Entity) :
    Except Error (List Entity) := do
  return (← roundsAbove store dimension maxDepth [e] [e.id]).flatten

/-- The parents of the procedure of a dataset, if there is such a procedure. -/
def procedureParents (store : Store) (options : Options) (d : Dataset) :
    Except Error (Option (SortedSet CondensedEntity)) := do
  match ← ifFound (store.findEntity .procedure d.procedure) with
  | none => return none
  | some procedure => return some (← parentsOf store .procedure procedure options)

/-- Adds parents to those found so far. -/
def addParents (known : Option (SortedSet CondensedEntity)) :
    Option (SortedSet CondensedEntity) → Option (SortedSet CondensedEntity)
  | none => known
  | some parents => some ((known.getD ∅).union parents)

def extrasOf (store : Store) (options : Options) (ds : List Dataset) :
    Except Error PlatformExtras := do
  let parents ← ds.mapM (procedureParents store options)
  return ⟨parents.foldl addParents none⟩

end Observatory.Hierarchy
