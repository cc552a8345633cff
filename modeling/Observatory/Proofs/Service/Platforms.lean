import Mathlib.Data.Set.Card
import Observatory.Proofs.Catalog.Identifiers
import Observatory.Proofs.Service.Ancestors
import Observatory.Proofs.Service.Hiding
import Observatory.Proofs.Service.Labels

/-! What is told of a platform.

A procedure is in use on a platform if a visible dataset there refers to it (`InUse`). It is
told by its stored parents, or by itself if it names none (`StandsFor`). The service goes
over the datasets of the platform and adds up what each has to tell; what is missing has
nothing to tell and is no failure. So the answer is the set of those that stand for a
procedure in use, each once (`platformExtras_exact`), and neither the order of the datasets
nor their repetition shows in it. -/
namespace Observatory

/-! ### Short entities -/

namespace CondensedEntity

theorem key_injective : Function.Injective key := by
  intro a b h
  obtain ⟨id, domainId, label, href⟩ := a
  obtain ⟨id', domainId', label', href'⟩ := b
  simp only [key, List.cons.injEq] at h
  obtain ⟨rfl, rfl, rfl, hhref⟩ := h
  cases href <;> cases href' <;> simp_all

instance : Std.Asymm (α := CondensedEntity) (· < ·) :=
  ⟨fun a b h h' => List.lt_asymm (show a.key < b.key from h) h'⟩

instance : Std.Trichotomous (α := CondensedEntity) (· < ·) :=
  ⟨fun a b h h' => key_injective (Std.Trichotomous.trichotomous (r := (· < ·)) a.key b.key h h')⟩

/-- Short entities are of different ids if the entities are. -/
theorem id_of_inj {e e' : Entity} {dimension : Dimension} {options : Options}
    (h : (of e dimension options).id = (of e' dimension options).id) : e.id = e'.id :=
  Restriction.toString_injective h

end CondensedEntity

/-! ### Parents of a procedure -/

namespace Hierarchy

/-- Who is told of a procedure. -/
inductive StandsFor (c : Catalog) (procedure : Entity) : Entity → Prop
  | root (h : procedure.parents = []) : StandsFor c procedure procedure
  | parent {id : Id} {parent : Entity} (h : id ∈ procedure.parents)
    (stored : c.StoredUnder .procedure id parent) : StandsFor c procedure parent

variable (c : Catalog) (options : Options)

/-- The parents of an entity over a catalog: a missing one is left out. -/
theorem parentsOf_store (e : Entity) :
    ∃ parents, parentsOf c.store .procedure e options = .ok parents ∧
      ∀ x, x ∈ parents ↔ ∃ parent, StandsFor c e parent ∧ x = .of parent .procedure options := by
  unfold parentsOf
  by_cases hroot : e.parents = []
  · have hnone : e.hasParents = false := by simp [Entity.hasParents, hroot]
    rw [hnone]
    refine ⟨_, rfl, fun x => ?_⟩
    rw [SortedSet.mem_ofList, List.mem_singleton]
    constructor
    · intro hx
      exact ⟨e, .root hroot, hx⟩
    · intro ⟨parent, hparent, hx⟩
      cases hparent with
      | root => exact hx
      | parent h => exact absurd (hroot ▸ h) List.not_mem_nil
  · have hsome : e.hasParents = true := by simp [Entity.hasParents, hroot]
    rw [hsome, if_pos rfl, loadParents_store]
    refine ⟨_, rfl, fun x => ?_⟩
    rw [SortedSet.mem_ofList, List.mem_map]
    constructor
    · intro ⟨parent, hparent, hx⟩
      obtain ⟨id, hid, hstored⟩ := mem_parentsIn.mp hparent
      exact ⟨parent, .parent hid hstored, hx.symm⟩
    · intro ⟨parent, hparent, hx⟩
      cases hparent with
      | root h => exact absurd h hroot
      | parent h stored => exact ⟨parent, mem_parentsIn.mpr ⟨_, h, stored⟩, hx.symm⟩

/-- A dataset tells the parents of its procedure, and nothing where that is missing. -/
theorem procedureParents_store (d : Dataset) :
    ∃ told, procedureParents c.store options d = .ok told ∧
      (told.isSome = true ↔ ∃ procedure, c.StoredUnder .procedure d.procedure procedure) ∧
      ∀ x, (∃ s ∈ told, x ∈ s) ↔ ∃ procedure, c.StoredUnder .procedure d.procedure procedure ∧
        ∃ e, StandsFor c procedure e ∧ x = .of e .procedure options := by
  unfold procedureParents
  rw [ifFound_store]
  simp only [← Catalog.entity?_eq_some_iff]
  cases c.entity? .procedure d.procedure with
  | none => exact ⟨none, rfl, by simp, by simp⟩
  | some procedure =>
    obtain ⟨parents, hparents, hmem⟩ := parentsOf_store c options procedure
    refine ⟨some parents, ?_, by simp, fun x => ?_⟩
    · show (do return some (← parentsOf c.store .procedure procedure options)) = _
      rw [hparents]
      rfl
    · simp [hmem]

/-! ### All datasets of a platform -/

section Sum
variable {known told : Option (SortedSet CondensedEntity)}
  {all : List (Option (SortedSet CondensedEntity))}

theorem isSome_addParents :
    (addParents known told).isSome = true ↔ known.isSome = true ∨ told.isSome = true := by
  cases told <;> simp [addParents]

theorem mem_addParents {x : CondensedEntity} :
    (∃ s ∈ addParents known told, x ∈ s) ↔ (∃ s ∈ known, x ∈ s) ∨ ∃ s ∈ told, x ∈ s := by
  cases told with
  | none => simp [addParents]
  | some parents =>
    have hempty : x ∉ (∅ : SortedSet CondensedEntity) := List.not_mem_nil
    have hunion (s : SortedSet CondensedEntity) : x ∈ s.union parents ↔ x ∈ s ∨ x ∈ parents :=
      SortedSet.mem_foldl_insert
    cases known <;> simp [addParents, hunion, hempty]

theorem isSome_foldl_addParents :
    (all.foldl addParents known).isSome = true ↔
      known.isSome = true ∨ ∃ told ∈ all, told.isSome = true := by
  induction all generalizing known with
  | nil => simp
  | cons told rest ih =>
    rw [List.foldl_cons, ih, isSome_addParents]
    simp [or_assoc]

theorem mem_foldl_addParents {x : CondensedEntity} :
    (∃ s ∈ all.foldl addParents known, x ∈ s) ↔
      (∃ s ∈ known, x ∈ s) ∨ ∃ told ∈ all, ∃ s ∈ told, x ∈ s := by
  induction all generalizing known with
  | nil => simp
  | cons told rest ih =>
    rw [List.foldl_cons, ih, mem_addParents]
    simp [or_assoc]

end Sum

/-- **What datasets tell is told by one of them**, and nothing is told where none has a stored
procedure. -/
theorem extrasOf_store (ds : List Dataset) :
    ∃ extras, extrasOf c.store options ds = .ok extras ∧
      (extras.procedures.isSome = true ↔
        ∃ d ∈ ds, ∃ procedure, c.StoredUnder .procedure d.procedure procedure) ∧
      ∀ x, (∃ s ∈ extras.procedures, x ∈ s) ↔
        ∃ d ∈ ds, ∃ procedure, c.StoredUnder .procedure d.procedure procedure ∧
          ∃ e, StandsFor c procedure e ∧ x = .of e .procedure options := by
  choose told hok hsome hmem using procedureParents_store c options
  refine ⟨⟨(ds.map told).foldl addParents none⟩, ?_, ?_, fun x => ?_⟩
  · unfold extrasOf
    rw [Outcomes.mapM_ok fun d _ => hok d]
    rfl
  · rw [isSome_foldl_addParents]
    simp [hsome]
  · rw [mem_foldl_addParents]
    simp only [List.mem_map, exists_exists_and_eq_and, hmem, Option.not_mem_none, false_and,
      exists_false, false_or]

end Hierarchy

/-! ### The service -/

namespace Service
open Hierarchy (StandsFor)

variable (config : Config) (c : Catalog) (platform : Id) (options : Options)

/-- A procedure in use: it is stored under the id that a visible dataset of the platform
refers to. -/
def InUse (procedure : Entity) : Prop :=
  ∃ d ∈ c.datasets, (d.isVisible = true ∧ d.platform = platform) ∧
    c.StoredUnder .procedure d.procedure procedure

/-- An entity stands for a procedure in use. -/
def Represents (e : Entity) : Prop :=
  ∃ procedure, InUse c platform procedure ∧ StandsFor c procedure e

/-- What has to be told of the procedures in use: nothing where there are none, else those that
stand for them, one for each id. -/
structure Tells (told : Option (SortedSet CondensedEntity)) : Prop where
  isSome_iff : told.isSome = true ↔ ∃ d ∈ c.datasets, (d.isVisible = true ∧ d.platform = platform) ∧
    ∃ e ∈ c.entities .procedure, e.id = d.procedure
  mem_iff : ∀ s ∈ told, ∀ x, x ∈ s ↔ ∃ e, Represents c platform e ∧
    CondensedEntity.ShortOf e .procedure options x
  eq_of_id : ∀ s ∈ told, ∀ x ∈ s, ∀ y ∈ s, x.id = y.id → x = y
  size_eq : ∀ s ∈ told, s.size = {id | ∃ e, Represents c platform e ∧ e.id = id}.ncard

variable {c platform options}

theorem Represents.stored {e : Entity} (h : Represents c platform e) :
    c.StoredUnder .procedure e.id e := by
  obtain ⟨procedure, ⟨d, _, _, hd⟩, hstands⟩ := h
  cases hstands with
  | root => exact hd.own
  | parent _ stored => exact stored.own

/-- Of what is told no two share an id, so there are as many as there are ids. -/
theorem tells_of_mem {told : Option (SortedSet CondensedEntity)}
    (hsome : told.isSome = true ↔ ∃ d ∈ c.datasets, (d.isVisible = true ∧ d.platform = platform) ∧
      ∃ procedure, c.StoredUnder .procedure d.procedure procedure)
    (hmem : ∀ s ∈ told, ∀ x, x ∈ s ↔ ∃ e, Represents c platform e ∧ x = .of e .procedure options) :
    Tells c platform options told := by
  have hdistinct : ∀ s ∈ told, ∀ x ∈ s, ∀ y ∈ s, x.id = y.id → x = y := by
    intro s hs x hx y hy hid
    obtain ⟨e, he, rfl⟩ := (hmem s hs x).mp hx
    obtain ⟨e', he', rfl⟩ := (hmem s hs y).mp hy
    have hstored := he.stored
    rw [CondensedEntity.id_of_inj hid] at hstored
    rw [hstored.unique he'.stored]
  refine ⟨by simp only [hsome, Catalog.exists_storedUnder_iff],
    fun s hs x => by simp only [hmem s hs x, CondensedEntity.shortOf_iff], hdistinct,
    fun s hs => ?_⟩
  have hnodup : (s.toList.map (·.id)).Nodup := by
    refine List.Nodup.map_on (hdistinct s hs) (s.sorted.imp fun {a b} hlt heq => ?_)
    rw [heq] at hlt
    exact Std.Asymm.asymm b b hlt hlt
  have hids : ((fun id : Id => toString id) '' {id | ∃ e, Represents c platform e ∧ e.id = id}) =
      ((s.toList.map (·.id)).toFinset : Set String) := by
    ext text
    simp only [Set.mem_image, Set.mem_ofPred_eq, List.coe_toFinset, List.mem_map]
    constructor
    · intro ⟨id, ⟨e, he, hid⟩, htext⟩
      refine ⟨.of e .procedure options, (hmem s hs _).mpr ⟨e, he, rfl⟩, ?_⟩
      rw [← htext, ← hid]
      rfl
    · intro ⟨x, hx, htext⟩
      obtain ⟨e, he, rfl⟩ := (hmem s hs x).mp hx
      exact ⟨e.id, ⟨e, he, rfl⟩, htext⟩
  rw [← Set.ncard_image_of_injective _ Restriction.toString_injective, hids,
    Set.ncard_coe_finset, List.toFinset_card_of_nodup hnodup, List.length_map]
  rfl

/-- There is one way to tell it. -/
theorem Tells.unique {first second : Option (SortedSet CondensedEntity)}
    (h : Tells c platform options first) (h' : Tells c platform options second) :
    first = second := by
  have hsome : first.isSome = true ↔ second.isSome = true := h.isSome_iff.trans h'.isSome_iff.symm
  cases first with
  | none =>
    cases second with
    | none => rfl
    | some t => exact absurd (hsome.mpr rfl) Bool.false_ne_true
  | some s =>
    cases second with
    | none => exact absurd (hsome.mp rfl) Bool.false_ne_true
    | some t =>
      refine congrArg some (SortedSet.eq_of_mem_iff fun x => ?_)
      rw [h.mem_iff s rfl, h'.mem_iff t rfl]

/-- Only the set of the datasets matters. -/
theorem Tells.congr {other : Catalog} (hentities : other.entities = c.entities)
    (hdatasets : ∀ d, d ∈ other.datasets ↔ d ∈ c.datasets)
    {told : Option (SortedSet CondensedEntity)} (h : Tells other platform options told) :
    Tells c platform options told := by
  have hstored : other.StoredUnder = c.StoredUnder := by
    funext dimension id e
    rw [Catalog.StoredUnder, Catalog.StoredUnder, hentities]
  have hstands (procedure e : Entity) : StandsFor other procedure e ↔ StandsFor c procedure e := by
    constructor
    · intro h
      cases h with
      | root h => exact .root h
      | parent h stored => exact .parent h (hstored ▸ stored)
    · intro h
      cases h with
      | root h => exact .root h
      | parent h stored => exact .parent h (hstored ▸ stored)
  have hrepresents (e : Entity) : Represents other platform e ↔ Represents c platform e := by
    simp only [Represents, InUse, hdatasets, hstored, hstands]
  obtain ⟨hsome, hmem, heq, hsize⟩ := h
  simp only [hdatasets, hentities] at hsome
  simp only [hrepresents] at hmem hsize
  exact ⟨hsome, hmem, heq, hsize⟩

/-! ### The datasets of a platform -/

/-- A list of one id asks that this is the id. -/
theorem admits_one {id : Id} {reference : Option Id} {identified : String → Prop} :
    Restriction.Admits (SortedSet.ofList [toString id]) false reference identified ↔
      reference = some id := by
  have hone (key : String) : key ∈ SortedSet.ofList [toString id] ↔ key = toString id := by
    rw [SortedSet.mem_ofList, List.mem_singleton]
  have hne : SortedSet.ofList [toString id] ≠ ∅ := by
    intro hempty
    have hmem := (hone (toString id)).mpr rfl
    rw [hempty] at hmem
    exact absurd hmem List.not_mem_nil
  rw [Restriction.Admits, or_iff_right hne, if_neg Bool.false_ne_true]
  simp [hone, Restriction.readId?_toString]

variable (c platform options)

theorem evaluate_onPlatform (resolver : Resolver) (d : Dataset) :
    (onPlatform platform).evaluate resolver (c.datasetRow d) = true ↔
      d.isVisible = true ∧ d.platform = platform := by
  unfold onPlatform
  rw [Predicate.evaluate_allOf]
  simp only [List.all_cons, List.all_nil, Option.all_some, Bool.and_true, Bool.and_eq_true,
    Catalog.evaluate_isPublic, Catalog.datasetsOf_holds, admits_one, Dataset.reference?,
    Option.some.injEq]

theorem mem_datasetsWhere_onPlatform {d : Dataset} :
    d ∈ c.datasetsWhere (onPlatform platform) ↔
      d ∈ c.datasets ∧ d.isVisible = true ∧ d.platform = platform := by
  rw [Catalog.datasetsWhere_eq, List.mem_filter, evaluate_onPlatform]

/-- Where the platform is stored, what has to be told is told. -/
theorem platformExtras_stored (h : ∃ e ∈ c.entities .platform, e.id = platform) :
    ∃ extras, (onCatalog config c).platformExtras platform options = .ok extras ∧
      Tells c platform options extras.procedures := by
  obtain ⟨extras, hextras, hsome, hmem⟩ :=
    Hierarchy.extrasOf_store c options (c.datasetsWhere (onPlatform platform))
  obtain ⟨e, he⟩ := Catalog.exists_storedUnder_iff.mpr h
  refine ⟨extras, ?_, tells_of_mem ?_ fun s hs x => ?_⟩
  · rw [← hextras]
    show (do
        let _ ← found (.noEntity .platform platform) (c.entity? .platform platform)
        Hierarchy.extrasOf c.store options (c.datasetsWhere (onPlatform platform))) = _
    rw [Catalog.entity?_eq_some_iff.mpr he]
    rfl
  · simp only [hsome, mem_datasetsWhere_onPlatform, and_assoc]
  · have hx : x ∈ s ↔ ∃ s ∈ extras.procedures, x ∈ s := by
      rw [Option.mem_def.mp hs]
      simp
    rw [hx, hmem]
    simp only [mem_datasetsWhere_onPlatform]
    constructor
    · intro ⟨d, ⟨hd, hthere⟩, procedure, hprocedure, e, he, hx⟩
      exact ⟨e, ⟨procedure, ⟨d, hd, hthere, hprocedure⟩, he⟩, hx⟩
    · intro ⟨e, ⟨procedure, ⟨d, hd, hthere, hprocedure⟩, he⟩, hx⟩
      exact ⟨d, ⟨hd, hthere⟩, procedure, hprocedure, e, he, hx⟩

theorem platformExtras_missing (h : ∀ e ∈ c.entities .platform, e.id ≠ platform) :
    (onCatalog config c).platformExtras platform options = .error (.noEntity .platform platform) := by
  show (do
      let _ ← found (.noEntity .platform platform) (c.entity? .platform platform)
      Hierarchy.extrasOf c.store options (c.datasetsWhere (onPlatform platform))) = _
  rw [Catalog.entity?_eq_none_iff.mpr h]
  rfl

/-- **Of a platform is told who stands for the procedures in use on it.** The request fails
exactly where there is no such platform. Else the procedures are told if a visible dataset of
the platform refers to a stored one: each by itself if it names no parents, else by those of
its parents that are stored, one for each id. Datasets in another order, or stored twice,
give the same answer. -/
theorem platformExtras_exact :
    ((∀ e ∈ c.entities .platform, e.id ≠ platform) ∧
        (onCatalog config c).platformExtras platform options =
          .error (.noEntity .platform platform) ∨
      (∃ e ∈ c.entities .platform, e.id = platform) ∧
        ∃ extras, (onCatalog config c).platformExtras platform options = .ok extras ∧
          Tells c platform options extras.procedures) ∧
    ∀ other : Catalog, other.entities = c.entities →
      (∀ d, d ∈ other.datasets ↔ d ∈ c.datasets) →
      (onCatalog config other).platformExtras platform options =
        (onCatalog config c).platformExtras platform options := by
  constructor
  · by_cases h : ∃ e ∈ c.entities .platform, e.id = platform
    · exact .inr ⟨h, platformExtras_stored config c platform options h⟩
    · have hmissing : ∀ e ∈ c.entities .platform, e.id ≠ platform := fun e he hid => h ⟨e, he, hid⟩
      exact .inl ⟨hmissing, platformExtras_missing config c platform options hmissing⟩
  · intro other hentities hdatasets
    by_cases h : ∃ e ∈ c.entities .platform, e.id = platform
    · obtain ⟨extras, hextras, htells⟩ := platformExtras_stored config c platform options h
      obtain ⟨extras', hextras', htells'⟩ :=
        platformExtras_stored config other platform options (hentities ▸ h)
      have hsame : extras' = extras :=
        congrArg PlatformExtras.mk ((htells'.congr hentities hdatasets).unique htells)
      rw [hextras, hextras', hsame]
    · have hmissing : ∀ e ∈ c.entities .platform, e.id ≠ platform := fun e he hid => h ⟨e, he, hid⟩
      rw [platformExtras_missing config c platform options hmissing,
        platformExtras_missing config other platform options (hentities ▸ hmissing)]

/-! ### A mast with procedures that run in a circle -/

/-- Two datasets in use on a mast; their procedures name each other and one that is not stored.
A third dataset refers to no stored procedure, a draft and a dataset of another platform to
one that nothing else refers to. -/
def looped : Catalog where
  entities
    | .platform => [Catalog.plainEntity 1 "mast"]
    | .procedure =>
      [Catalog.plainEntity 1 "logger",
        { Catalog.plainEntity 2 "sensor" with parents := [9, 3, 1] },
        { Catalog.plainEntity 3 "relay" with parents := [3, 2] }, Catalog.plainEntity 4 "spare"]
    | _ => []
  datasets :=
    [{ Catalog.plainDataset 1 1 true with procedure := 2 },
      { Catalog.plainDataset 2 1 true with procedure := 3 },
      { Catalog.plainDataset 3 1 true with procedure := 8 },
      { Catalog.plainDataset 4 1 false with procedure := 4 },
      { Catalog.plainDataset 5 1 true with procedure := 4, platform := 2 }]
  observations := []

/-- Three procedures are told, also where the datasets are stored twice and backwards. -/
theorem platformExtras_looped :
    ((onCatalog .standard looped).platformExtras 1 .standard).map
        (fun extras => extras.procedures.map fun s => s.toList.map (·.id)) =
        .ok (some ["1", "2", "3"]) ∧
      (∃ extras, (onCatalog .standard looped).platformExtras 1 .standard = .ok extras ∧
        Tells looped 1 .standard extras.procedures) ∧
      (onCatalog .standard { looped with
          datasets := looped.datasets.reverse ++ looped.datasets }).platformExtras 1 .standard =
        (onCatalog .standard looped).platformExtras 1 .standard := by
  obtain ⟨hanswer, hsame⟩ := platformExtras_exact .standard looped 1 .standard
  refine ⟨rfl, ?_, hsame _ rfl fun d => by simp⟩
  rcases hanswer with ⟨hmissing, _⟩ | ⟨_, hstored⟩
  · exact absurd rfl (hmissing (Catalog.plainEntity 1 "mast") List.mem_cons_self)
  · exact hstored

end Service
end Observatory
