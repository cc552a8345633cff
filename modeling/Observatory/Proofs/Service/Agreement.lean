import Observatory.Proofs.Service.Extras

/-! Data and extras agree.

Data is one value for every observation asked for; extras count the observations in the store
and collect their result times there. Both tell the same (`extras_agree`): the count is the
number of values, and where everything is asked for the result times are those that the values
tell. A dataset that is not served has neither, and one whose values have no converter has
extras all the same, but no aggregates. -/
namespace Observatory.Service

/-! ### Result times -/

/-- The result times that values tell. -/
def timesTold (values : List OutputValue) : SortedSet Instant :=
  SortedSet.ofList (values.filterMap (·.resultTime))

/-- A set, unless it is empty. -/
def unlessEmpty (times : SortedSet Instant) : Option (SortedSet Instant) :=
  if times.isEmpty then none else some times

theorem mem_resultTimes {c : Catalog} {d : Dataset} {t : Instant} :
    t ∈ c.resultTimes d ↔ ∃ o ∈ c.observationsOf d, Conversion.distinctTime? o = some t := by
  unfold Catalog.resultTimes Conversion.distinctTime?
  rw [SortedSet.mem_ofList, List.mem_filterMap]
  constructor
  · intro ⟨o, ho, ht⟩
    obtain ⟨ho, hdistinct⟩ := List.mem_filter.mp ho
    exact ⟨o, ho, by rw [if_pos hdistinct, ht]⟩
  · intro ⟨o, ho, ht⟩
    by_cases hdistinct : Dataset.isDistinctResultTime o.resultTime o.samplingEnd = true
    · rw [if_pos hdistinct] at ht
      exact ⟨o, List.mem_filter.mpr ⟨ho, hdistinct⟩, ht⟩
    · rw [if_neg hdistinct] at ht
      exact nomatch ht

/-- Values of all observations of a dataset, in whatever order, tell the result times that the
store tells, if everything is asked for. -/
theorem timesTold_eq {c : Catalog} {d : Dataset} {kind : ValueKind} {noData : NoData}
    {options : Options} {os : List Observation} {values : List OutputValue}
    (hexpanded : options.expanded = true) (hos : os.Perm (c.observationsOf d))
    (h : List.Forall₂ (fun o v => Conversion.convert kind noData d options (some o) = .ok v) os
      values) :
    timesTold values = c.resultTimes d := by
  have htimes : values.map (·.resultTime) = os.map Conversion.distinctTime? :=
    Outcomes.map_answers h fun _ _ hv => Conversion.resultTime_of_convert hexpanded hv
  refine SortedSet.eq_of_mem_iff fun t => ?_
  calc t ∈ timesTold values
    _ ↔ some t ∈ values.map (·.resultTime) := by
      rw [timesTold, SortedSet.mem_ofList, List.mem_filterMap, List.mem_map]
    _ ↔ ∃ o ∈ os, Conversion.distinctTime? o = some t := by rw [htimes, List.mem_map]
    _ ↔ t ∈ c.resultTimes d := by simp only [mem_resultTimes, hos.mem_iff]

/-! ### Answers -/

section Answers
variable (config : Config) (c : Catalog) (q : Query)

/-- The extras of a dataset that is served and whose values have a converter. -/
theorem datasetExtras_known {id : Id} {d : Dataset} {kind : ValueKind} {r : Registry}
    (hserved : Serves c id d) (hkind : Registry.Gives r.table (.ofDataset d) kind) :
    ∃ aggregation, ((onCatalog config c).datasetExtras id q r).1 =
        .ok ⟨unlessEmpty (c.resultTimes d), some aggregation⟩ ∧
      aggregation.count = some (askedFor c d q.timespan).length := by
  rw [datasetExtras_eq config c q hserved, aggregation_eq config c q hkind, aggregatesOf_eq]
  cases kind.isNumeric <;> exact ⟨_, rfl, rfl⟩

/-- The extras of a dataset that is served and whose values have no converter. -/
theorem datasetExtras_unknown {id : Id} {d : Dataset} {r : Registry}
    (hserved : Serves c id d) (hkind : ∀ row ∈ r.table, row.key ≠ (TypeKey.ofDataset d).text) :
    ((onCatalog config c).datasetExtras id q r).1 = .ok ⟨unlessEmpty (c.resultTimes d), none⟩ := by
  have haggregation : ((onCatalog config c).aggregation d q r).1 = .ok .none := by
    unfold aggregation
    rw [Registry.resolve_of_no_row hkind]
  rw [datasetExtras_eq config c q hserved, haggregation]
  rfl

/-- A dataset that is not served has no extras. -/
theorem datasetExtras_missing {id : Id} {r : Registry} (hserved : ∀ d, ¬ Serves c id d) :
    ((onCatalog config c).datasetExtras id q r).1 = .error (.noDataset id) := by
  unfold datasetExtras
  rw [visibleDataset_of_not_serves config hserved]
  rfl

end Answers

/-- **Data and extras agree**, whatever converters the two requests find made. Where there is
data, there are extras that count its values, and for a request of everything they tell the
result times that the values tell, or none if the values tell none. Where the values have no
converter there are extras without aggregates, and a dataset that is reported as missing is
reported so by both. -/
theorem extras_agree (config : Config) (c : Catalog) (q : Query) (id : Id) {r r' : Registry}
    (htable : r'.table = r.table) :
    (∀ output, ((onCatalog config c).data id q r).1 = .ok output →
      ∃ extras aggregation, ((onCatalog config c).datasetExtras id q r').1 = .ok extras ∧
        extras.aggregation = some aggregation ∧ aggregation.count = some output.values.length ∧
        (q.options.expanded = true → q.timespan = none →
          extras.resultTimes = unlessEmpty (timesTold output.values))) ∧
    (∀ key, ((onCatalog config c).data id q r).1 = .error (.unknownType key) →
      ∃ extras, ((onCatalog config c).datasetExtras id q r').1 = .ok extras ∧
        extras.aggregation = none) ∧
    (∀ what, ((onCatalog config c).data id q r).1 = .error (.notFound what) →
      ((onCatalog config c).datasetExtras id q r').1 = .error (.notFound what)) := by
  have hanswer := dataAnswer_data config c id q r
  generalize ((onCatalog config c).data id q r).1 = answer at hanswer
  rw [← htable] at hanswer
  cases hanswer with
  | noDataset hserved =>
    refine ⟨fun output h => (nomatch h), fun key h => (nomatch h), fun what h => ?_⟩
    rw [← Except.error.inj h]
    exact datasetExtras_missing config c q hserved
  | unknownType hserved hkind =>
    refine ⟨fun output h => (nomatch h), fun key _ => ?_, fun what h => (nomatch h)⟩
    exact ⟨_, datasetExtras_unknown config c q hserved hkind, rfl⟩
  | missingTimestamp hserved hkind hall hfirst =>
    exact ⟨fun output h => (nomatch h), fun key h => (nomatch h), fun what h => (nomatch h)⟩
  | values hserved hkind hdated hos hvalues =>
    refine ⟨fun output h => ?_, fun key h => (nomatch h), fun what h => (nomatch h)⟩
    obtain rfl := Except.ok.inj h
    obtain ⟨aggregation, hextras, hcount⟩ := datasetExtras_known config c q hserved hkind
    refine ⟨_, aggregation, hextras, rfl, ?_, fun hexpanded hall => ?_⟩
    · rw [hcount, ← hos.perm.length_eq, hvalues.length_eq]
    · rw [hall, askedFor_none] at hos
      rw [timesTold_eq hexpanded hos.perm hvalues]

/-! ### A dataset with result times -/

/-- The day after the first moment of a year. -/
def nextDay : Instant :=
  { newYear with date := { newYear.date with day := 2, day_range := by decide } }

/-- Measurements of which one result is given at once, two on the next day and one never. -/
def reviewed : Catalog where
  entities _ := []
  datasets := [temperatures]
  observations :=
    [{ measurement (.quantity 21.5) with resultTime := some newYear },
      { measurement .null with resultTime := some nextDay },
      { measurement (.quantity (-9999)) with resultTime := some nextDay },
      measurement (.text "n/a")]

/-- A request for everything there is to tell. -/
def expanded : Query := .unrestricted { Options.standard with expanded := true }

/-- There are four values, a missing one among them, and the next day is the only result time. -/
theorem extras_of_reviewed : ∃ output extras aggregation,
    ((onCatalog .standard reviewed).data 1 expanded (.standard ⟨[]⟩)).1 = .ok output ∧
    ((onCatalog .standard reviewed).datasetExtras 1 expanded (.standard ⟨[]⟩)).1 = .ok extras ∧
    extras.aggregation = some aggregation ∧ aggregation.count = some output.values.length ∧
    output.values.length = 4 ∧ extras.resultTimes = unlessEmpty (timesTold output.values) ∧
    extras.resultTimes = some (SortedSet.ofList [nextDay]) := by
  have hserved : Serves reviewed 1 temperatures := serves_iff.mp rfl
  have hdated : ∀ o ∈ askedFor reviewed temperatures none, o.samplingEnd = some newYear := by
    intro o ho
    have hmem := (mem_askedFor.mp ho).1
    simp only [reviewed, List.mem_cons, List.not_mem_nil, or_false] at hmem
    rcases hmem with rfl | rfl | rfl | rfl <;> rfl
  obtain ⟨output, houtput⟩ : ∃ output,
      ((onCatalog .standard reviewed).data 1 expanded (.standard ⟨[]⟩)).1 = .ok output := by
    refine exists_data hserved (kind_temperatures ⟨[]⟩) fun o ho => ?_
    rw [hdated o ho]
    exact Option.some_ne_none newYear
  obtain ⟨extras, aggregation, hextras, haggregation, hcount, htimes⟩ :=
    (extras_agree .standard reviewed expanded 1 rfl).1 output houtput
  refine ⟨output, extras, aggregation, houtput, hextras, haggregation, hcount, ?_, htimes rfl rfl, ?_⟩
  · have hvalues := (perm_of_data hserved (kind_temperatures ⟨[]⟩) houtput).length_eq
    rw [List.length_map, List.length_map] at hvalues
    exact hvalues
  · obtain ⟨_, hknown, _⟩ := datasetExtras_known .standard reviewed expanded hserved
      (kind_temperatures ⟨[]⟩)
    obtain rfl := Except.ok.inj (hextras.symm.trans hknown)
    show unlessEmpty (reviewed.resultTimes temperatures) = _
    decide

end Observatory.Service
