import Observatory.Proofs.Outcomes
import Observatory.Proofs.Service.Hiding
import Observatory.Proofs.Service.Labels

/-! Listed datasets.

A dataset is listed with a label made of the labels of its phenomenon, its procedure and its
feature (`TellsOf`), so these have to be stored. A search lists the datasets that the query asks
for, or reports the first of those references that leads nowhere (`Listing`). What other
references lead to, and what other datasets refer to, is of no account (`datasets_listed`). -/
namespace Observatory

/-- A reference of a dataset leads to a stored entity. -/
def Catalog.Resolves (c : Catalog) (d : Dataset) (dimension : Dimension) : Prop :=
  ∃ e ∈ c.entities dimension, d.reference? dimension = some e.id

instance (c : Catalog) (d : Dataset) : DecidablePred (c.Resolves d) := fun dimension =>
  inferInstanceAs (Decidable (∃ e ∈ c.entities dimension, d.reference? dimension = some e.id))

theorem Catalog.resolves_iff {c : Catalog} {d : Dataset} {dimension : Dimension} :
    c.Resolves d dimension ↔ ∃ e, c.RefersTo d dimension e := by
  constructor
  · intro ⟨e, he, href⟩
    obtain ⟨first, hfirst⟩ := exists_storedUnder_iff.mpr ⟨e, he, rfl⟩
    exact ⟨first, e.id, href, hfirst⟩
  · intro ⟨e, id, href, hstored⟩
    exact ⟨e, hstored.mem, hstored.id_eq ▸ href⟩

namespace Service

/-! ### What is told of a dataset -/

/-- The dimensions whose entities label a dataset, in the order in which they are looked up. -/
def labelling : List Dimension := [.phenomenon, .procedure, .feature]

/-- Every part of the label of a dataset is stored. -/
def IsLabelled (c : Catalog) (d : Dataset) : Prop :=
  ∀ dimension ∈ labelling, c.Resolves d dimension

instance (c : Catalog) : DecidablePred (IsLabelled c) := fun d =>
  inferInstanceAs (Decidable (∀ dimension ∈ labelling, c.Resolves d dimension))

/-- A label of the entity that a dataset refers to. -/
inductive LabelOf (c : Catalog) (locale : String) (d : Dataset) (dimension : Dimension) :
    String → Prop
  | of {e : Entity} {label : String} (refers : c.RefersTo d dimension e)
    (called : e.Called locale label) : LabelOf c locale d dimension label

theorem LabelOf.resolves {c : Catalog} {locale label : String} {d : Dataset}
    {dimension : Dimension} (h : LabelOf c locale d dimension label) : c.Resolves d dimension := by
  obtain ⟨refers, _⟩ := h
  exact Catalog.resolves_iff.mpr ⟨_, refers⟩

/-- What is told of a dataset in short. -/
structure TellsOf (c : Catalog) (options : Options) (d : Dataset) (o : DatasetOutput) : Prop where
  label : ∃ phenomenon procedure feature,
    LabelOf c options.locale d .phenomenon phenomenon ∧
    LabelOf c options.locale d .procedure procedure ∧
    LabelOf c options.locale d .feature feature ∧
    o.label = phenomenon ++ " " ++ procedure ++ ", " ++ feature
  id : o.id = toString d.id
  domainId : o.domainId = d.identifier
  href : o.href = options.href? "datasets" (toString d.id)
  kinds : o.datasetType = d.datasetKind ∧ o.observationType = d.observationKind ∧
    o.valueType = d.valueKind
  mobile : o.mobile = d.mobile
  uom : o.uom = d.unit

theorem TellsOf.isLabelled {c : Catalog} {options : Options} {d : Dataset} {o : DatasetOutput}
    (h : TellsOf c options d o) : IsLabelled c d := by
  obtain ⟨_, _, _, hphenomenon, hprocedure, hfeature, _⟩ := h.label
  intro dimension hdimension
  simp only [labelling, List.mem_cons, List.not_mem_nil, or_false] at hdimension
  rcases hdimension with rfl | rfl | rfl
  · exact hphenomenon.resolves
  · exact hprocedure.resolves
  · exact hfeature.resolves

/-- The first reference of a dataset, among those that label it, that leads nowhere. -/
structure Dangling (c : Catalog) (d : Dataset) (dimension : Dimension) (id : Id) : Prop where
  first : labelling.find? (fun dimension => decide (¬ c.Resolves d dimension)) = some dimension
  reference : d.reference? dimension = some id

namespace Dangling
variable {c : Catalog} {d : Dataset} {dimension : Dimension} {id : Id}

theorem mem_labelling (h : Dangling c d dimension id) : dimension ∈ labelling :=
  List.mem_of_find?_eq_some h.first

theorem not_resolves (h : Dangling c d dimension id) : ¬ c.Resolves d dimension := by
  simpa using List.find?_some h.first

end Dangling

section Label
variable (config : Config) {c : Catalog} (options : Options) {d : Dataset} {dimension : Dimension}

theorem labelOf_eq {id : Id} (href : d.reference? dimension = some id) :
    (onCatalog config c).labelOf options d dimension =
      (found (.noEntity dimension id) (c.entity? dimension id)).map
        fun e => some (e.label options.locale) := by
  simp only [labelOf, href]
  rfl

theorem labelOf_of_resolves (h : c.Resolves d dimension) :
    ∃ label, (onCatalog config c).labelOf options d dimension = .ok (some label) ∧
      LabelOf c options.locale d dimension label := by
  obtain ⟨e, he⟩ := Catalog.resolves_iff.mp h
  obtain ⟨id, href, hstored⟩ := he
  refine ⟨e.label options.locale, ?_, .of ⟨id, href, hstored⟩ (e.called_label options.locale)⟩
  rw [labelOf_eq config options href, Catalog.entity?_eq_some_iff.mpr hstored]
  rfl

theorem labelOf_of_not_resolves {id : Id} (href : d.reference? dimension = some id)
    (h : ¬ c.Resolves d dimension) :
    (onCatalog config c).labelOf options d dimension = .error (.noEntity dimension id) := by
  have hmissing (e : Entity) (he : e ∈ c.entities dimension) : e.id ≠ id := by
    intro hid
    exact h ⟨e, he, hid ▸ href⟩
  rw [labelOf_eq config options href, Catalog.entity?_eq_none_iff.mpr hmissing]
  rfl

/-- A dataset whose label has all its parts is told of. -/
theorem condense_of_isLabelled (h : IsLabelled c d) :
    ∃ o, (onCatalog config c).condense options d = .ok o ∧ TellsOf c options d o := by
  obtain ⟨phenomenon, hphenomenon, hphenomenonOf⟩ :=
    labelOf_of_resolves config options (h .phenomenon (by decide))
  obtain ⟨procedure, hprocedure, hprocedureOf⟩ :=
    labelOf_of_resolves config options (h .procedure (by decide))
  obtain ⟨feature, hfeature, hfeatureOf⟩ :=
    labelOf_of_resolves config options (h .feature (by decide))
  refine ⟨_, by simp only [condense, hphenomenon, hprocedure, hfeature]; rfl, ?_⟩
  exact ⟨⟨phenomenon, procedure, feature, hphenomenonOf, hprocedureOf, hfeatureOf, rfl⟩, rfl, rfl, rfl,
    ⟨rfl, rfl, rfl⟩, rfl, rfl⟩

theorem tellsOf_of_condense {config : Config} {options : Options} {o : DatasetOutput}
    (h : IsLabelled c d) (ho : (onCatalog config c).condense options d = .ok o) :
    TellsOf c options d o := by
  obtain ⟨told, htold, htells⟩ := condense_of_isLabelled config options h
  obtain rfl := Except.ok.inj (ho.symm.trans htold)
  exact htells

/-- The first part of a label that is missing is reported. -/
theorem condense_of_dangling {id : Id} (h : Dangling c d dimension id) :
    (onCatalog config c).condense options d = .error (.noEntity dimension id) := by
  have hfirst := h.first
  have herror := labelOf_of_not_resolves config options h.reference h.not_resolves
  by_cases hphenomenon : c.Resolves d .phenomenon
  · obtain ⟨phenomenon, hphenomenonOf, _⟩ := labelOf_of_resolves config options hphenomenon
    by_cases hprocedure : c.Resolves d .procedure
    · obtain ⟨procedure, hprocedureOf, _⟩ := labelOf_of_resolves config options hprocedure
      obtain ⟨_, rfl⟩ : ¬ c.Resolves d .feature ∧ Dimension.feature = dimension := by
        simpa [labelling, hphenomenon, hprocedure] using hfirst
      simp only [condense, hphenomenonOf, hprocedureOf, herror]
      rfl
    · obtain rfl : Dimension.procedure = dimension := by
        simpa [labelling, hphenomenon, hprocedure] using hfirst
      simp only [condense, hphenomenonOf, herror]
      rfl
  · obtain rfl : Dimension.phenomenon = dimension := by
      simpa [labelling, hphenomenon] using hfirst
    simp only [condense, herror]
    rfl

/-- What is told of a dataset depends on the entities of the dimensions that label it alone. -/
theorem condense_congr {a b : Catalog}
    (h : ∀ dimension ∈ labelling, a.entities dimension = b.entities dimension) :
    (onCatalog config a).condense options = (onCatalog config b).condense options := by
  have hlabel (d : Dataset) (dimension : Dimension) (hdimension : dimension ∈ labelling) :
      (onCatalog config a).labelOf options d dimension =
        (onCatalog config b).labelOf options d dimension := by
    cases href : d.reference? dimension with
    | none => simp only [labelOf, href]
    | some id =>
      rw [labelOf_eq config options href, labelOf_eq config options href, Catalog.entity?,
        h dimension hdimension]
      rfl
  funext d
  simp only [condense, hlabel d .phenomenon (by decide), hlabel d .procedure (by decide),
    hlabel d .feature (by decide)]

end Label

/-! ### The datasets that are listed -/

/-- The datasets that a query asks for, as they are stored. -/
def asked (c : Catalog) (q : Query) : List Dataset := c.datasets.filter fun d => decide (c.Asked q d)

/-- **What a search for datasets comes to**: one output for every dataset asked for, in the order
of the table, or the first reference that leads nowhere of the first of them that has one. -/
inductive Listing (c : Catalog) (q : Query) : Except Error (List DatasetOutput) → Prop
  | told {outputs : List DatasetOutput}
    (h : List.Forall₂ (TellsOf c q.options) (asked c q) outputs) : Listing c q (.ok outputs)
  | dangling {before after : List Dataset} {d : Dataset} {dimension : Dimension} {id : Id}
    (hasked : asked c q = before ++ d :: after) (hbefore : ∀ d ∈ before, IsLabelled c d)
    (hdangling : Dangling c d dimension id) : Listing c q (.error (.noEntity dimension id))

section Listing
variable {c : Catalog} {q : Query} {d : Dataset}

theorem mem_asked : d ∈ asked c q ↔ d ∈ c.datasets ∧ c.Asked q d := by
  rw [asked, List.mem_filter, decide_eq_true_iff]

/-- A dataset asked for has a feature, so what its label lacks is missing under an id. -/
theorem exists_dangling (hd : c.Asked q d) (h : ¬ IsLabelled c d) :
    ∃ dimension id, Dangling c d dimension id := by
  have hsome : (labelling.find? fun dimension => decide (¬ c.Resolves d dimension)).isSome = true := by
    simpa [IsLabelled, List.find?_isSome] using h
  obtain ⟨dimension, hfirst⟩ := Option.isSome_iff_exists.mp hsome
  have href : (d.reference? dimension).isSome = true := by
    cases dimension with
    | feature => exact hd.feature
    | _ => rfl
  obtain ⟨id, hid⟩ := Option.isSome_iff_exists.mp href
  exact ⟨dimension, id, hfirst, hid⟩

/-- Whether a search succeeds is decided by the labels of the datasets asked for. -/
theorem Listing.ok_iff {answer : Except Error (List DatasetOutput)} (h : Listing c q answer) :
    (∃ outputs, answer = .ok outputs) ↔ ∀ d ∈ asked c q, IsLabelled c d := by
  cases h with
  | told h =>
    have hlabelled := (List.forall₂_and_left ..).mp (h.imp fun _ _ h => ⟨h.isLabelled, h⟩)
    exact ⟨fun _ => hlabelled.1, fun _ => ⟨_, rfl⟩⟩
  | @dangling before after d dimension id hasked hbefore hdangling =>
    refine ⟨fun ⟨_, hok⟩ => (nomatch hok), fun hall => ?_⟩
    have hd : IsLabelled c d := hall d (by rw [hasked]; simp)
    exact absurd (hd dimension hdangling.mem_labelling) hdangling.not_resolves

variable (config : Config) (c : Catalog) (q : Query)

theorem datasets_eq :
    (onCatalog config c).datasets q = (asked c q).mapM ((onCatalog config c).condense q.options) := by
  rw [asked, ← c.datasetsWhere_matchFilters q]
  rfl

theorem listing_datasets : Listing c q ((onCatalog config c).datasets q) := by
  rw [datasets_eq]
  cases hfirst : (asked c q).find? fun d => decide (¬ IsLabelled c d) with
  | none =>
    have hall (d : Dataset) (hd : d ∈ asked c q) : IsLabelled c d := by
      simpa using List.find?_eq_none.mp hfirst d hd
    obtain ⟨outputs, houtputs, hanswers⟩ := Outcomes.mapM_answers fun d hd =>
      (condense_of_isLabelled config q.options (hall d hd)).imp fun _ h => h.1
    have htold := (List.forall₂_and_left ..).mpr ⟨hall, hanswers⟩
    rw [houtputs]
    exact .told (htold.imp fun d o h => tellsOf_of_condense h.1 h.2)
  | some d =>
    obtain ⟨hd, before, after, hasked, hbefore⟩ := List.find?_eq_some_iff_append.mp hfirst
    have hmem := mem_asked.mp (List.mem_of_find?_eq_some hfirst)
    obtain ⟨dimension, id, hdangling⟩ := exists_dangling hmem.2 (by simpa using hd)
    rw [Outcomes.mapM_first hfirst (condense_of_dangling config q.options hdangling) fun d hd =>
      (condense_of_isLabelled config q.options (by simpa using hd)).imp fun _ h => h.1]
    exact .dangling hasked (by simpa using hbefore) hdangling

/-- **A search lists the datasets that the query asks for**, or reports the first part of a label
that is missing, which happens exactly where one of these datasets lacks a part of its label.
Keys that are no ids, where ids are asked for, leave nothing to list. Nothing else makes a
search fail: catalogs in which a query asks for the same datasets, with the same entities to
label them, are listed alike. -/
theorem datasets_listed :
    Listing c q ((onCatalog config c).datasets q) ∧
    ((∃ outputs, (onCatalog config c).datasets q = .ok outputs) ↔
      ∀ d ∈ c.datasets, c.Asked q d → ∀ dimension ∈ labelling, c.Resolves d dimension) ∧
    (q.options.useDomainIdentifiers = false →
      (∃ keys ∈ Catalog.keyLists q, ∃ key ∈ keys, Restriction.readId? key = none) →
      (onCatalog config c).datasets q = .ok []) ∧
    ∀ other : Catalog, asked other q = asked c q →
      (∀ dimension ∈ labelling, other.entities dimension = c.entities dimension) →
      (onCatalog config other).datasets q = (onCatalog config c).datasets q := by
  have hlisting := listing_datasets config c q
  refine ⟨hlisting, ?_, fun hids hkeys => ?_, fun other hasked hentities => ?_⟩
  · rw [hlisting.ok_iff]
    simp only [mem_asked, and_imp, IsLabelled]
  · have hnone : asked c q = [] :=
      List.filter_eq_nil_iff.mpr fun d _ hd =>
        c.not_asked_of_unreadable hids hkeys d (of_decide_eq_true hd)
    rw [datasets_eq, hnone]
    rfl
  · rw [datasets_eq, datasets_eq, hasked, condense_congr config q.options hentities]

end Listing

/-- The phenomenon of the first dataset is stored, its procedure is not; that another dataset
lacks its phenomenon is not reported. -/
example : (onCatalog .standard .withDraft).datasets (.unrestricted .standard) =
    .error (.notFound "procedure 1") := by decide

end Service
end Observatory
