import Observatory.Collection.SortedSet
import Observatory.Error
import Observatory.Value.NoData
import Observatory.Value.TypeKey

/-! Converters by type key.

A table says which kind of value each key stands for; the first row with a key
counts. Converters are made when they are first asked for and kept, one for each
key, so a key is always answered by the same converter. -/
namespace Observatory

/-- What the values of a dataset are converted to. -/
inductive ValueKind where
  | quantity
  | count
  | text
  | profile
deriving DecidableEq, Repr

namespace ValueKind

def name : ValueKind → String
  | quantity => "quantity"
  | count => "count"
  | text => "text"
  | profile => "profile"

def ofName? (s : String) : Option ValueKind := [quantity, count, text, profile].find? (·.name == s)

/-- Whether values of the kind have a least, a greatest and a mean. -/
def isNumeric : ValueKind → Bool
  | quantity => true
  | count => true
  | _ => false

end ValueKind

/-- A row of the converter table. -/
structure Descriptor where
  key : String
  valueKind : ValueKind
deriving DecidableEq

/-- A converter that a registry has handed out. -/
structure Converter where
  /-- Its place among the converters of the registry. -/
  number : Nat
  kind : ValueKind
deriving DecidableEq

/-- The kind of value that a table gives for a key. -/
def kindInTable? (table : List Descriptor) (key : TypeKey) : Option ValueKind :=
  (table.find? (·.key == key.text)).map (·.valueKind)

/-- A converter table with the converters made so far, in the order in which they
were made. -/
structure Registry where
  table : List Descriptor
  noData : NoData
  made : List (TypeKey × ValueKind)
  /-- Every converter is of the kind that the table gives. -/
  made_of_table : ∀ entry ∈ made, kindInTable? table entry.1 = some entry.2
  /-- No key has two converters. -/
  made_once : (made.map (·.1)).Nodup

namespace Registry

def standardTable : List Descriptor :=
  [⟨"quantity", .quantity⟩, ⟨"count", .count⟩, ⟨"text", .text⟩, ⟨"profile", .profile⟩,
    ⟨"quantity-profile", .profile⟩, ⟨"text-profile", .profile⟩, ⟨"quantity-trajectory", .quantity⟩,
    ⟨"count-trajectory", .count⟩, ⟨"text-trajectory", .text⟩, ⟨"text-complex", .text⟩]

def ofTable (table : List Descriptor) (noData : NoData) : Registry where
  table := table
  noData := noData
  made := []
  made_of_table := by simp
  made_once := by simp

def standard (noData : NoData) : Registry := ofTable standardTable noData

/-- The converter made for a key, if there is one. -/
def find? (r : Registry) (key : TypeKey) : Option Converter :=
  match r.made.findIdx? (fun entry => entry.1 == key), r.made.lookup key with
  | some number, some kind => some ⟨number, kind⟩
  | _, _ => none

/-- A key for which no converter was made is not among those that have one. -/
theorem not_mem_of_find?_eq_none {r : Registry} {key : TypeKey} (h : r.find? key = none) :
    key ∉ r.made.map (·.1) := by
  intro hmem
  obtain ⟨entry, hentry, rfl⟩ := List.mem_map.1 hmem
  simp only [find?] at h
  split at h
  · simp at h
  · next hnone =>
    cases hidx : r.made.findIdx? (fun e => e.1 == entry.1) with
    | none => simpa using List.findIdx?_eq_none_iff.1 hidx entry hentry
    | some number =>
      cases hlook : r.made.lookup entry.1 with
      | none => simpa using List.lookup_eq_none_iff.1 hlook entry hentry
      | some kind => exact hnone number kind hidx hlook

/-- The registry with one more converter. -/
def add (r : Registry) (key : TypeKey) (kind : ValueKind) (h : kindInTable? r.table key = some kind)
    (fresh : key ∉ r.made.map (·.1)) : Registry where
  table := r.table
  noData := r.noData
  made := r.made ++ [(key, kind)]
  made_of_table := by
    intro entry hentry
    rcases List.mem_append.1 hentry with hentry | hentry
    · exact r.made_of_table entry hentry
    · obtain rfl := List.mem_singleton.1 hentry
      exact h
  made_once := by
    rw [List.map_append, List.nodup_append]
    refine ⟨r.made_once, by simp, ?_⟩
    intro a ha b hb
    obtain rfl := List.mem_singleton.1 hb
    exact fun hab => fresh (hab ▸ ha)

/-- The converter for a key: the one made before, else a new one of the kind that
the table gives. -/
def resolve (key : TypeKey) (r : Registry) : Except Error Converter × Registry :=
  match hfind : r.find? key with
  | some converter => (.ok converter, r)
  | none =>
    match hkind : kindInTable? r.table key with
    | some kind => (.ok ⟨r.made.length, kind⟩, r.add key kind hkind (not_mem_of_find?_eq_none hfind))
    | none => (.error (.unknownType key.text), r)

/-- Whether there is or can be a converter for a key. -/
def isKnown (r : Registry) (key : TypeKey) : Bool :=
  (r.find? key).isSome || (kindInTable? r.table key).isSome

/-- The value kinds that the keys of the table start with. -/
def knownTypes (r : Registry) : SortedSet String :=
  SortedSet.ofList (r.table.map fun d => TypeKey.baseOf d.key)

def cached (r : Registry) : Nat := r.made.length

def summary (r : Registry) : String :=
  "TypeDispatchRegistry \x7b descriptors: " ++ toString r.table.length ++ ", cached: " ++
    toString r.cached ++ " \x7d"

end Registry
end Observatory
