import Observatory.Proofs.Catalog.Reachability
import Observatory.Proofs.Text.Numeral

/-! Queries by id and by identifier.

A query that lists ids of stored records asks for the same when each id is replaced by the
domain identifier of the record it names, as long as ids and identifiers are distinct
(`KeysDistinct`). For one list this is `admits_identifiers`: a reference leads to a listed
record, or leads nowhere and is listed in neither form. A query asks one list of the
dataset's own keys and one of each reference (`asked_byIdentifiers`). -/
namespace Observatory

namespace Restriction

/-- The decimal form of an id stands for it. -/
theorem readId?_toString (id : Id) : readId? (toString id) = some id := by
  rw [readId?, Text.trim_toString, Text.int64?_toString]

theorem toString_injective : Function.Injective fun id : Id => toString id := by
  intro a b (h : toString a = toString b)
  have hread : some a = some b := by rw [← readId?_toString a, h, readId?_toString b]
  exact Option.some.inj hread

end Restriction

/-! ### One list of keys -/

namespace Records
open Restriction (Admits readId? readId?_toString toString_injective)

section Keys
variable {α : Type} (id : α → Id) (identifier : α → String) (xs : List α)

/-- The first record whose id has that decimal form. -/
def named? (key : String) : Option α := xs.find? fun x => toString (id x) == key

/-- The domain identifiers of the records that a list of ids names. -/
def identifiers (keys : SortedSet String) : SortedSet String :=
  SortedSet.ofList (keys.toList.filterMap fun key => (named? id xs key).map identifier)

/-- Every key is the decimal form of the id of some record. -/
def Lists (keys : SortedSet String) : Prop := ∀ key ∈ keys, ∃ x ∈ xs, key = toString (id x)

theorem identifiers_empty : identifiers id identifier xs ∅ = ∅ := rfl

end Keys

variable {α : Type} {id : α → Id} {identifier : α → String} {xs : List α}
  {keys : SortedSet String}

/-- Where ids are distinct, the id of a record names the record. -/
theorem named?_toString (hids : (xs.map id).Nodup) {x : α} (hx : x ∈ xs) :
    named? id xs (toString (id x)) = some x := by
  have hdecimals : (xs.map fun x => toString (id x)).Nodup := by
    rw [← Function.comp_def, ← List.map_map]
    exact hids.map toString_injective
  exact find?_of_mem hdecimals hx

/-- The identifiers that stand for a list of ids are those of the listed records. -/
theorem mem_identifiers (hids : (xs.map id).Nodup) (hlists : Lists id xs keys) {s : String} :
    s ∈ identifiers id identifier xs keys ↔
      ∃ x ∈ xs, toString (id x) ∈ keys ∧ identifier x = s := by
  unfold identifiers
  rw [SortedSet.mem_ofList, List.mem_filterMap]
  constructor
  · intro ⟨key, hkey, hs⟩
    obtain ⟨x, hx, rfl⟩ := hlists key hkey
    rw [named?_toString hids hx] at hs
    exact ⟨x, hx, hkey, Option.some.inj hs⟩
  · intro ⟨x, hx, hkey, hs⟩
    refine ⟨toString (id x), hkey, ?_⟩
    rw [named?_toString hids hx, Option.map_some, hs]

theorem identifiers_eq_empty (hids : (xs.map id).Nodup) (hlists : Lists id xs keys) :
    identifiers id identifier xs keys = ∅ ↔ keys = ∅ := by
  constructor
  · intro h
    refine SortedSet.ext (List.eq_nil_iff_forall_not_mem.mpr fun key hkey => ?_)
    obtain ⟨x, hx, rfl⟩ := hlists key hkey
    have hmem : identifier x ∈ identifiers id identifier xs keys :=
      (mem_identifiers hids hlists).mpr ⟨x, hx, hkey, rfl⟩
    rw [h] at hmem
    exact absurd hmem List.not_mem_nil
  · rintro rfl
    exact identifiers_empty id identifier xs

/-- **What a list of ids asks of a reference, the list of identifiers asks of the record that
it leads to.** A reference that leads to no record meets neither. -/
theorem admits_identifiers (hids : (xs.map id).Nodup) (hidentifiers : (xs.map identifier).Nodup)
    (hlists : Lists id xs keys) {reference : Option Id} {identified other : String → Prop}
    (hidentified : ∀ s, identified s ↔
      ∃ x, (∃ n, reference = some n ∧ IsFirst id n xs x) ∧ identifier x = s) :
    Admits (identifiers id identifier xs keys) true reference identified ↔
      Admits keys false reference other := by
  unfold Admits
  rw [if_pos rfl, if_neg Bool.false_ne_true, identifiers_eq_empty hids hlists]
  refine or_congr_right ?_
  have hread : ∀ key ∈ keys, (readId? key).isSome := by
    intro key hkey
    obtain ⟨x, _, rfl⟩ := hlists key hkey
    rw [readId?_toString]
    rfl
  rw [and_iff_right hread]
  constructor
  · intro ⟨s, hs, hfound⟩
    obtain ⟨x, hx, hkey, rfl⟩ := (mem_identifiers hids hlists).mp hs
    obtain ⟨y, ⟨n, rfl, hy⟩, hyx⟩ := (hidentified _).mp hfound
    -- The record that the reference leads to has the identifier of a listed one, so it is that one.
    have hsame : y = x := List.inj_on_of_nodup_map hidentifiers hy.mem hx hyx
    refine ⟨toString (id x), hkey, ?_⟩
    rw [readId?_toString, ← hsame, hy.key_eq]
  · intro ⟨key, hkey, hreference⟩
    obtain ⟨x, hx, rfl⟩ := hlists key hkey
    rw [readId?_toString] at hreference
    refine ⟨identifier x, (mem_identifiers hids hlists).mpr ⟨x, hx, hkey, rfl⟩, ?_⟩
    exact (hidentified _).mpr ⟨x, ⟨id x, hreference, isFirst_of_mem hids hx⟩, rfl⟩

/-- The same for the keys of a stored record itself. -/
theorem admits_own (hids : (xs.map id).Nodup) (hidentifiers : (xs.map identifier).Nodup)
    (hlists : Lists id xs keys) {x : α} (hx : x ∈ xs) :
    Admits (identifiers id identifier xs keys) true (some (id x)) (identifier x = ·) ↔
      Admits keys false (some (id x)) (identifier x = ·) := by
  refine admits_identifiers hids hidentifiers hlists fun s => ?_
  constructor
  · intro hs
    exact ⟨x, ⟨id x, rfl, isFirst_of_mem hids hx⟩, hs⟩
  · rintro ⟨y, ⟨n, hn, hy⟩, hs⟩
    obtain rfl := Option.some.inj hn
    rw [(isFirst_of_mem hids hx).unique hy, hs]

end Records

/-! ### All lists of a query -/

namespace Catalog
open Restriction (Admits)

/-- No two entities of a dimension, and no two datasets, share an id or an identifier. -/
structure KeysDistinct (c : Catalog) : Prop where
  entity_ids : ∀ dimension, ((c.entities dimension).map (·.id)).Nodup
  entity_identifiers : ∀ dimension, ((c.entities dimension).map (·.identifier)).Nodup
  dataset_ids : (c.datasets.map (·.id)).Nodup
  dataset_identifiers : (c.datasets.map (·.identifier)).Nodup

/-- A query lists nothing but ids of stored records. -/
structure ListsIds (c : Catalog) (q : Query) : Prop where
  entities : ∀ dimension, Records.Lists (·.id) (c.entities dimension) (q.idsFor dimension)
  datasets : Records.Lists (·.id) c.datasets q.datasets

/-- The identifiers of the entities that a query lists by id. -/
def identifiersFor (c : Catalog) (q : Query) (dimension : Dimension) : SortedSet String :=
  Records.identifiers (·.id) (·.identifier) (c.entities dimension) (q.idsFor dimension)

/-- The query with every id replaced by the identifier of the record it names. -/
def byIdentifiers (c : Catalog) (q : Query) : Query :=
  { q with
    offerings := c.identifiersFor q .offering
    features := c.identifiersFor q .feature
    phenomena := c.identifiersFor q .phenomenon
    procedures := c.identifiersFor q .procedure
    categories := c.identifiersFor q .category
    platforms := c.identifiersFor q .platform
    datasets := Records.identifiers (·.id) (·.identifier) c.datasets q.datasets
    options := { q.options with useDomainIdentifiers := true } }

variable {c : Catalog} {q : Query}

@[simp] theorem idsFor_byIdentifiers (dimension : Dimension) :
    (c.byIdentifiers q).idsFor dimension = c.identifiersFor q dimension := by
  cases dimension <;> rfl

theorem byIdentifiers_withIds (dimension : Dimension) :
    c.byIdentifiers (q.withIds dimension ∅) = (c.byIdentifiers q).withIds dimension ∅ := by
  cases dimension <;> rfl

theorem ListsIds.withIds (h : c.ListsIds q) (dimension : Dimension) :
    c.ListsIds (q.withIds dimension ∅) where
  entities other := by
    by_cases hother : other = dimension
    · rw [hother, Query.idsFor_withIds_self]
      exact fun key hkey => absurd hkey List.not_mem_nil
    · rw [q.idsFor_withIds_of_ne ∅ hother]
      exact h.entities other
  datasets := by
    rw [Query.datasets_withIds]
    exact h.datasets

section Modes
variable (hkeys : c.KeysDistinct) (hmode : q.options.useDomainIdentifiers = false)
  (hlists : c.ListsIds q)
include hkeys hmode hlists

/-- A query asks the same of a stored dataset in both forms. -/
theorem asked_byIdentifiers {d : Dataset} (hd : d ∈ c.datasets) :
    c.Asked (c.byIdentifiers q) d ↔ c.Asked q d := by
  have hlisted : Admits (c.byIdentifiers q).datasets true (some d.id) (d.identifier = ·) ↔
      Admits q.datasets q.options.useDomainIdentifiers (some d.id) (d.identifier = ·) := by
    rw [hmode]
    exact Records.admits_own hkeys.dataset_ids hkeys.dataset_identifiers hlists.datasets hd
  have hreference (dimension : Dimension) :
      Admits ((c.byIdentifiers q).idsFor dimension) true (d.reference? dimension)
          (c.IdentifiedBy d dimension) ↔
        Admits (q.idsFor dimension) q.options.useDomainIdentifiers (d.reference? dimension)
          (c.IdentifiedBy d dimension) := by
    rw [hmode, idsFor_byIdentifiers]
    exact Records.admits_identifiers (hkeys.entity_ids dimension)
      (hkeys.entity_identifiers dimension) (hlists.entities dimension) fun _ => Iff.rfl
  constructor
  · intro h
    exact ⟨h.feature, h.published, h.not_deleted, h.not_disabled, hlisted.mp h.listed,
      fun dimension => (hreference dimension).mp (h.references dimension), h.place, h.valueKind,
      h.datasetKind⟩
  · intro h
    exact ⟨h.feature, h.published, h.not_deleted, h.not_disabled, hlisted.mpr h.listed,
      fun dimension => (hreference dimension).mpr (h.references dimension), h.place, h.valueKind,
      h.datasetKind⟩

/-- **The two forms of a query find the same**: replacing every listed id by the domain
identifier of the record it names, and asking for identifiers, changes neither the datasets
that are found nor the entities that are reached, whatever references dangle. -/
theorem find_byIdentifiers :
    c.store.findDatasets (c.byIdentifiers q).matchFilters =
        c.store.findDatasets q.matchFilters ∧
      ∀ dimension, c.store.findEntities dimension ((c.byIdentifiers q).matchReachable dimension) =
        c.store.findEntities dimension (q.matchReachable dimension) := by
  constructor
  · refine congrArg Except.ok ?_
    rw [datasetsWhere_matchFilters, datasetsWhere_matchFilters]
    refine List.filter_congr fun d hd => ?_
    exact decide_eq_decide.mpr (asked_byIdentifiers hkeys hmode hlists hd)
  · intro dimension
    refine congrArg Except.ok ?_
    rw [entitiesWhere_eq, entitiesWhere_eq]
    refine List.filter_congr fun e he => ?_
    rw [Bool.eq_iff_iff, evaluate_matchReachable, evaluate_matchReachable, idsFor_byIdentifiers,
      ← byIdentifiers_withIds, hmode]
    refine and_congr ?_ (exists_congr fun d => and_congr_right fun hd => and_congr_left' ?_)
    · exact Records.admits_own (hkeys.entity_ids dimension) (hkeys.entity_identifiers dimension)
        (hlists.entities dimension) he
    · refine asked_byIdentifiers hkeys ?_ (hlists.withIds dimension) hd
      rw [Query.options_withIds, hmode]

end Modes

/-! ### A catalog with a dangling reference -/

/-- Three datasets of one platform, the last of a phenomenon that is not stored. -/
def onMast : Catalog where
  entities
    | .phenomenon => [plainEntity 1 "temp", plainEntity 2 "wind", plainEntity 3 "rain"]
    | .platform => [plainEntity 1 "mast"]
    | _ => []
  datasets :=
    [{ plainDataset 1 1 true with identifier := "air" },
      { plainDataset 2 2 true with identifier := "gusts" },
      { plainDataset 3 9 true with identifier := "lost" }]
  observations := []

/-- A query for two phenomena and two datasets by their ids. -/
def askingIds : Query where
  __ := Query.unrestricted .standard
  phenomena := SortedSet.ofList ["1", "3"]
  platforms := SortedSet.ofList ["1"]
  datasets := SortedSet.ofList ["1", "3"]

theorem keysDistinct_onMast : onMast.KeysDistinct where
  entity_ids dimension := by cases dimension <;> decide
  entity_identifiers dimension := by cases dimension <;> decide
  dataset_ids := by decide
  dataset_identifiers := by decide

theorem listsIds_onMast : onMast.ListsIds askingIds where
  entities dimension := by cases dimension <;> unfold Records.Lists <;> decide
  datasets := by
    unfold Records.Lists
    decide

/-- One dataset is found in both forms, and its phenomenon is the only one reached. -/
theorem find_onMast :
    (onMast.datasetsWhere askingIds.matchFilters).map (·.id) = [1] ∧
      (onMast.byIdentifiers askingIds).phenomena = SortedSet.ofList ["rain", "temp"] ∧
      (onMast.byIdentifiers askingIds).datasets = SortedSet.ofList ["air", "lost"] ∧
      onMast.store.findDatasets (onMast.byIdentifiers askingIds).matchFilters =
        onMast.store.findDatasets askingIds.matchFilters ∧
      onMast.store.findEntities .phenomenon
          ((onMast.byIdentifiers askingIds).matchReachable .phenomenon) =
        onMast.store.findEntities .phenomenon (askingIds.matchReachable .phenomenon) := by
  obtain ⟨hdatasets, hentities⟩ := find_byIdentifiers keysDistinct_onMast
    (show askingIds.options.useDomainIdentifiers = false from rfl) listsIds_onMast
  exact ⟨by decide, by decide, by decide, hdatasets, hentities .phenomenon⟩

end Catalog
end Observatory
