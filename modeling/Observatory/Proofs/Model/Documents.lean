import Observatory.Model.Dataset
import Observatory.Model.Entity
import Observatory.Model.Observation
import Observatory.Proofs.Collection.SortedMap
import Observatory.Proofs.Collection.SortedSet
import Observatory.Proofs.Space.Document
import Observatory.Proofs.Time.Order
import Observatory.Proofs.Time.Stored

/-! Stored records that are written and read back.

Entities, datasets and observations are read back from their documents as they were, as long
as their doubles are real numbers (one that is none is written as null). For observations
this goes over the levels of profiles, to any depth (`levelInduction`): a raw value is read
back if the observations in it are, and an observation if its raw value is. -/
namespace Observatory
open Document

theorem Instant.restores (t : Instant) : Restores toDocument ofDocument? t where
  read := by
    rw [toDocument, ofDocument?, text?, Option.bind_some, readStored?_text]
  not_null := rfl

/-! ### Entities -/

namespace Entity

/-- The doubles that an entity has: those of its shape. -/
def doubles (e : Entity) : List Float := e.geometry.toList.flatMap Geometry.doubles

/-- Labels are read back as they are sorted by their locales. -/
theorem restores_translations (m : SortedMap String String) :
    Restores (fun m : SortedMap String String => .record (m.entries.map fun t => (t.1, .text t.2)))
      translationsOf? m where
  read := by
    have hentries : (m.entries.map fun t => (t.1, Document.text t.2)).mapM
        (fun f => (text? f.2).map fun label => (f.1, label)) = some m.entries := by
      induction m.entries with
      | nil => rfl
      | cons entry rest ih =>
        rw [List.map_cons, List.mapM_cons, ih]
        rfl
    refine reads_then rfl (reads_then hentries ?_)
    rw [SortedMap.ofList_entries]
    rfl
  not_null := rfl

theorem restores {e : Entity} (he : ∀ x ∈ e.doubles, Number.isFinite x = true) :
    Restores toDocument ofDocument? e where
  read := by
    have hshape : ∀ g ∈ e.geometry, Restores Geometry.toDocument Geometry.ofDocument? g := by
      intro g hg
      refine Geometry.restores fun x hx => he x ?_
      exact List.mem_flatMap_of_mem (Option.mem_toList.mpr hg) hx
    have hnone : e.translations.isEmpty = true → e.translations = ∅ := fun h =>
      SortedMap.ext (List.isEmpty_iff.mp h)
    unfold toDocument ofDocument?
    simp only [field_eq, fieldIfSome_eq, fieldIfAny_eq, written_unless, written_append,
      List.cons_append, List.nil_append]
    refine readsRecord rfl (by decide) fun fields h => ?_
    refine reads_then (required_of (restores_int64 e.id) (h "id")) ?_
    refine reads_then (required_of (restores_text e.identifier) (h "identifier")) ?_
    refine reads_then (optional_of (fun s _ => restores_text s) (h "name")) ?_
    refine reads_then (orElse_unless (restores_translations _) hnone (h "translations")) ?_
    refine reads_then (orElse_unless (restores_list fun n _ => restores_int64 n)
      List.isEmpty_iff.mp (h "parents")) ?_
    refine reads_then (optional_of hshape (h "geometry")) ?_
    rfl
  not_null := rfl

end Entity

/-! ### Datasets -/

theorem VerticalSettings.restores (v : VerticalSettings) : Restores toDocument ofDocument? v where
  read := by
    unfold toDocument ofDocument?
    simp only [fieldIfSome_eq, written_append, List.cons_append, List.nil_append]
    refine readsRecord rfl (by decide) fun fields h => ?_
    refine reads_then (optional_of (fun s _ => restores_text s) (h "unit")) ?_
    refine reads_then (optional_of (fun s _ => restores_text s) (h "parameter_name")) ?_
    refine reads_then (optional_of (fun s _ => restores_text s) (h "from_name")) ?_
    refine reads_then (optional_of (fun s _ => restores_text s) (h "to_name")) ?_
    rfl
  not_null := rfl

namespace Dataset

theorem restores_id (id : Id) : Restores idDocument int64? id := restores_int64 id

/-- Result times are read back as they are sorted. -/
theorem restores_resultTimes (times : SortedSet Instant) :
    Restores (fun times : SortedSet Instant => ofList Instant.toDocument times.toList)
      (fun d => (d.listOf? Instant.ofDocument?).map SortedSet.ofList) times where
  read := by
    have hlist : Restores (ofList Instant.toDocument) (listOf? Instant.ofDocument?) times.toList :=
      restores_list fun t _ => Instant.restores t
    show ((ofList Instant.toDocument times.toList).listOf? _).map _ = _
    rw [hlist.read, Option.map_some, SortedSet.ofList_toList]
  not_null := rfl

/-- **A dataset is read back from its document.** -/
theorem restores (d : Dataset) : Restores toDocument ofDocument? d where
  read := by
    have hnone : d.resultTimes.toList.isEmpty = true → d.resultTimes = ∅ := SortedSet.isEmpty_iff.mp
    unfold toDocument ofDocument?
    simp only [field_eq, fieldIfSome_eq, fieldIfAny_eq, written_append, List.cons_append,
      List.nil_append]
    refine readsRecord rfl (by decide) fun fields h => ?_
    refine reads_then (required_of (restores_id d.id) (h "id")) ?_
    refine reads_then (orElse_of (restores_text d.identifier) (h "identifier")) ?_
    refine reads_then (orElse_of (restores_text d.datasetKind) (h "dataset_kind")) ?_
    refine reads_then (orElse_of (restores_text d.observationKind) (h "observation_kind")) ?_
    refine reads_then (required_of (restores_text d.valueKind) (h "value_kind")) ?_
    refine reads_then (required_of (restores_id d.phenomenon) (h "phenomenon")) ?_
    refine reads_then (required_of (restores_id d.procedure) (h "procedure")) ?_
    refine reads_then (required_of (restores_id d.offering) (h "offering")) ?_
    refine reads_then (required_of (restores_id d.category) (h "category")) ?_
    refine reads_then (required_of (restores_id d.platform) (h "platform")) ?_
    refine reads_then (optional_ofOption (fun id _ => restores_id id) (h "feature")) ?_
    refine reads_then (orElse_of (restores_boolean d.published) (h "published")) ?_
    refine reads_then (orElse_of (restores_boolean d.deleted) (h "deleted")) ?_
    refine reads_then (orElse_of (restores_boolean d.disabled) (h "disabled")) ?_
    refine reads_then (orElse_of (restores_boolean d.mobile) (h "mobile")) ?_
    refine reads_then (orElse_of (restores_boolean d.insitu) (h "insitu")) ?_
    refine reads_then (optional_of (fun t _ => Instant.restores t) (h "first_value_at")) ?_
    refine reads_then (optional_of (fun t _ => Instant.restores t) (h "last_value_at")) ?_
    refine reads_then (optional_of (fun n _ => restores_int32 n) (h "number_of_decimals")) ?_
    refine reads_then (orElse_unless (restores_resultTimes _) hnone (h "result_times")) ?_
    refine reads_then (optional_of (fun s _ => restores_text s) (h "unit")) ?_
    refine reads_then (optional_of (fun v _ => VerticalSettings.restores v) (h "vertical")) ?_
    rfl
  not_null := rfl

end Dataset

/-! ### Parameters -/

def ParameterValue.doubles : ParameterValue → List Float
  | number x => [x]
  | text _ => []

/-- A number is not read as a text, nor a text as a number. -/
theorem ParameterValue.restores {v : ParameterValue}
    (hv : ∀ x ∈ v.doubles, Number.isFinite x = true) : Restores toDocument ofDocument? v := by
  cases v with
  | number x =>
    have hwrite : toDocument (number x) = .real x := if_pos (hv x List.mem_cons_self)
    exact ⟨by rw [hwrite]; rfl, by rw [hwrite]; rfl⟩
  | text s => exact ⟨rfl, rfl⟩

theorem Parameter.restores {p : Parameter}
    (hp : ∀ x ∈ p.value.doubles, Number.isFinite x = true) : Restores toDocument ofDocument? p where
  read := by
    unfold toDocument ofDocument?
    simp only [field_eq, fieldIfSome_eq, written_append, List.cons_append, List.nil_append]
    refine readsRecord rfl (by decide) fun fields h => ?_
    refine reads_then (required_of (restores_text p.name) (h "name")) ?_
    refine reads_then (required_of (ParameterValue.restores hp) (h "value")) ?_
    refine reads_then (optional_of (fun s _ => restores_text s) (h "unit")) ?_
    rfl
  not_null := rfl

/-! ### Observations -/

namespace Measurement
variable {V : Type}

/-- The doubles that an observation has beside its value. -/
def ownDoubles (o : Measurement V) : List Float :=
  o.geometry.toList.flatMap Geometry.doubles ++ o.verticalFrom.toList ++ o.verticalTo.toList ++
    o.parameters.flatMap fun p => p.value.doubles

/-- The fields of an observation that are written, given its value as a document. -/
theorem document_fields {o : Measurement V} (ho : ∀ x ∈ o.ownDoubles, Number.isFinite x = true)
    (value : Document) :
    ∃ fields, o.document value = .record fields ∧ Fields.givenOnce fieldNames fields = true ∧
      fields.lookup "value" = some value ∧
      ∀ {W : Type} (w : W), ofFields? fields w = some { o with value := w } := by
  obtain ⟨hshape, hfrom, hto, hparameters⟩ :
      (∀ g ∈ o.geometry, Restores Geometry.toDocument Geometry.ofDocument? g) ∧
      (∀ x ∈ o.verticalFrom, Restores ofFloat real? x) ∧
      (∀ x ∈ o.verticalTo, Restores ofFloat real? x) ∧
      ∀ p ∈ o.parameters, Restores Parameter.toDocument Parameter.ofDocument? p := by
    simp only [ownDoubles, List.forall_mem_append, List.forall_mem_flatMap, Option.mem_toList] at ho
    obtain ⟨⟨⟨hshape, hfrom⟩, hto⟩, hparameters⟩ := ho
    exact ⟨fun g hg => Geometry.restores (hshape g hg), fun x hx => restores_real (hfrom x hx),
      fun x hx => restores_real (hto x hx), fun p hp => Parameter.restores (hparameters p hp)⟩
  unfold document
  simp only [field_eq, fieldIfSome_eq, fieldIfAny_eq, written_append, List.cons_append,
    List.nil_append]
  have hdistinct : fieldNames.Nodup := by decide
  refine record_written rfl hdistinct fun fields honce h => ⟨honce, h "value", fun w => ?_⟩
  unfold ofFields?
  refine reads_then (required_of (restores_int64 o.id) (h "id")) ?_
  refine reads_then (orElse_of (restores_int64 o.dataset) (h "dataset")) ?_
  refine reads_then (optional_of (fun t _ => Instant.restores t) (h "sampling_time_start")) ?_
  refine reads_then (optional_of (fun t _ => Instant.restores t) (h "sampling_time_end")) ?_
  refine reads_then (optional_of (fun t _ => Instant.restores t) (h "result_time")) ?_
  refine reads_then (optional_of (fun t _ => Instant.restores t) (h "valid_time_start")) ?_
  refine reads_then (optional_of (fun t _ => Instant.restores t) (h "valid_time_end")) ?_
  refine reads_then (optional_of hshape (h "geometry")) ?_
  refine reads_then (optional_of hfrom (h "vertical_from")) ?_
  refine reads_then (optional_of hto (h "vertical_to")) ?_
  refine reads_then (orElse_unless (restores_list hparameters) List.isEmpty_iff.mp
    (h "parameters")) ?_
  rfl

end Measurement

/-! ### Levels -/

/-- Induction over a raw value and the observations in it, level by level. -/
@[elab_as_elim]
theorem levelInduction {motive : RawValue → Prop} (null : motive .null)
    (quantity : ∀ x, motive (.quantity x)) (count : ∀ n, motive (.count n))
    (text : ∀ s, motive (.text s))
    (profile : ∀ levels : List Observation, (∀ o ∈ levels, motive o.value) →
      motive (.profile levels))
    (v : RawValue) : motive v := by
  refine RawValue.rec (motive_1 := motive) (motive_2 := fun levels => ∀ o ∈ levels, motive o.value)
    (motive_3 := fun o => motive o.value) null quantity count text profile ?_ ?_ ?_ v
  · intro o ho
    exact absurd ho List.not_mem_nil
  · intro first rest hfirst hrest
    exact List.forall_mem_cons.mpr ⟨hfirst, hrest⟩
  · intro _ _ _ _ _ _ _ _ value _ _ _ hvalue
    exact hvalue

mutual

/-- The doubles in a raw value, those of its levels among them. -/
def RawValue.doubles : RawValue → List Float
  | .null => []
  | .quantity x => [x]
  | .count _ => []
  | .text _ => []
  | .profile levels => levelDoubles levels

def levelDoubles : List (Measurement RawValue) → List Float
  | [] => []
  | o :: rest => observationDoubles o ++ levelDoubles rest

def observationDoubles : Measurement RawValue → List Float
  | ⟨id, dataset, samplingStart, samplingEnd, resultTime, validStart, validEnd, geometry, value,
      verticalFrom, verticalTo, parameters⟩ =>
    Measurement.ownDoubles
        ⟨id, dataset, samplingStart, samplingEnd, resultTime, validStart, validEnd, geometry, (),
          verticalFrom, verticalTo, parameters⟩ ++
      value.doubles

end

/-- All doubles of an observation. -/
def Measurement.doubles (o : Observation) : List Float := o.ownDoubles ++ o.value.doubles

theorem levelDoubles_eq (levels : List Observation) :
    levelDoubles levels = levels.flatMap Measurement.doubles := by
  induction levels with
  | nil => rfl
  | cons o rest ih =>
    rw [levelDoubles, ih, List.flatMap_cons]
    congr 1
    cases o
    rw [observationDoubles]
    rfl

theorem levelsToDocuments_eq (levels : List Observation) :
    levelsToDocuments levels = levels.map Measurement.toDocument := by
  induction levels with
  | nil => rfl
  | cons o rest ih =>
    rw [levelsToDocuments, ih]
    rfl

theorem levelItems?_eq (early : Bool) (items : List Document) :
    levelItems? early items = items.mapM (observationOf? early) := by
  induction items with
  | nil => rfl
  | cons d rest ih =>
    rw [levelItems?, ih, List.mapM_cons]

theorem valueIn?_eq (early : Bool) (fields : Fields) :
    valueIn? early fields = (fields.lookup "value").map (rawValueOf? early) :=
  eq_map_lookup rfl (fun name d rest => by rw [valueIn?]) fields

theorem levelsIn?_eq (early : Bool) (fields : Fields) :
    levelsIn? early fields = (fields.lookup "value").map (levelsOf? early) :=
  eq_map_lookup rfl (fun name d rest => by rw [levelsIn?]) fields

/-- An observation is read back if its raw value is. -/
theorem Measurement.restores_of_value {o : Observation}
    (ho : ∀ x ∈ o.ownDoubles, Number.isFinite x = true)
    (hvalue : RawValue.ofDocument? o.value.toDocument = some o.value) :
    Restores toDocument ofDocument? o := by
  obtain ⟨fields, hfields, honce, hlookup, hread⟩ := document_fields ho o.value.toDocument
  have hwrite : o.toDocument = .record fields := by
    rw [← hfields]
    cases o
    show observationToDocument _ = _
    rw [observationToDocument]
    rfl
  have hin : valueIn? false fields = some (some o.value) := by
    rw [valueIn?_eq, hlookup, Option.map_some]
    exact congrArg some hvalue
  constructor
  · show observationOf? false o.toDocument = some o
    rw [hwrite, observationOf?, honce, hin]
    exact hread o.value
  · rw [hwrite]
    rfl

/-- A raw value is read back, to any depth of levels. -/
theorem RawValue.ofDocument?_toDocument (v : RawValue)
    (hv : ∀ x ∈ v.doubles, Number.isFinite x = true) : ofDocument? v.toDocument = some v := by
  induction v using levelInduction with
  | null =>
    rw [toDocument, ofDocument?, rawValueOf?]
    rfl
  | quantity x =>
    have hwrite : ofFloat x = .real x := if_pos (hv x List.mem_cons_self)
    rw [toDocument, ofDocument?, hwrite, rawValueOf?]
    rfl
  | count n =>
    rw [toDocument, ofDocument?, rawValueOf?]
    exact congrArg (Option.map RawValue.count) (restores_int64 n).read
  | text s =>
    rw [toDocument, ofDocument?, rawValueOf?]
    rfl
  | profile levels ih =>
    have hlevels : (ofList Measurement.toDocument levels).listOf? Measurement.ofDocument? =
        some levels := by
      rw [doubles, levelDoubles_eq, List.forall_mem_flatMap] at hv
      refine (restores_list fun o ho => ?_).read
      have hdoubles := List.forall_mem_append.mp (hv o ho)
      exact Measurement.restores_of_value hdoubles.1 (ih o ho hdoubles.2)
    have hin : levelsIn? false (field "kind" (.text "profile") ++
        field "value" (ofList Measurement.toDocument levels)) = some (some levels) := by
      rw [levelsIn?_eq]
      show some (levelsOf? false (.list (levels.map Measurement.toDocument))) = _
      rw [levelsOf?, levelItems?_eq]
      exact congrArg some hlevels
    rw [toDocument, ofDocument?, rawValueOf?, levelsToDocuments_eq]
    -- The kind is written before the value, so the levels are read without being settled first.
    show (levelsIn? false (field "kind" (.text "profile") ++
      field "value" (ofList Measurement.toDocument levels)) >>= Option.map RawValue.profile) = _
    rw [hin]
    rfl

theorem Measurement.restores {o : Observation} (ho : ∀ x ∈ o.doubles, Number.isFinite x = true) :
    Restores toDocument ofDocument? o := by
  obtain ⟨hown, hvalue⟩ := List.forall_mem_append.mp ho
  exact restores_of_value hown (RawValue.ofDocument?_toDocument o.value hvalue)

/-! ### All records -/

/-- **Reading undoes writing.** Shapes, entities, datasets and observations are read back from
their documents as they were, if their doubles are real numbers: fields that are left out
are read as what they are left out for, a parameter stays a number or a text, and profiles
hold their levels again, to any depth. -/
theorem reading_undoes_writing :
    (∀ g : Geometry Float, (∀ x ∈ g.doubles, Number.isFinite x = true) →
      Geometry.ofDocument? g.toDocument = some g) ∧
    (∀ e : Entity, (∀ x ∈ e.doubles, Number.isFinite x = true) →
      Entity.ofDocument? e.toDocument = some e) ∧
    (∀ d : Dataset, Dataset.ofDocument? d.toDocument = some d) ∧
    ∀ o : Observation, (∀ x ∈ o.doubles, Number.isFinite x = true) →
      Measurement.ofDocument? o.toDocument = some o :=
  ⟨fun _ hg => (Geometry.restores hg).read, fun _ he => (Entity.restores he).read,
    fun d => (Dataset.restores d).read, fun _ ho => (Measurement.restores ho).read⟩

/-- The last moment of a day with a leap second, long ago. -/
def leapSecond : Instant where
  date := ⟨-44, 3, 15, by decide, by decide, by decide⟩
  hour := ⟨23, by decide⟩
  minute := ⟨59, by decide⟩
  second := ⟨60, by decide⟩
  nanosecond := ⟨120000000, by decide⟩

/-- A place without a height. -/
def harbour : Geometry Float := .point ⟨7.5, -51.25, none⟩

/-- An observation with a profile whose only level holds a profile of its own. -/
def nestedProfile : Observation :=
  { Measurement.sampledAt 1 1 leapSecond
      (.profile [{ Measurement.bare 2 1 (.profile [.bare 3 1 (.quantity 0.1), .bare 4 1 .null]) with
        verticalTo := some 10
        parameters := [⟨"depth", .number 10, some "m"⟩, ⟨"crew", .text "7", none⟩] }]) with
    geometry := some harbour }

/-- Places and nested profiles are read back. -/
theorem nestedProfile_read :
    nestedProfile.doubles = [7.5, -51.25, 10, 10, 0.1] ∧
      Geometry.ofDocument? harbour.toDocument = some harbour ∧
      Measurement.ofDocument? nestedProfile.toDocument = some nestedProfile := by
  obtain ⟨hgeometry, _, _, hobservation⟩ := reading_undoes_writing
  exact ⟨rfl, hgeometry harbour (by decide +kernel), hobservation nestedProfile (by decide +kernel)⟩

end Observatory
