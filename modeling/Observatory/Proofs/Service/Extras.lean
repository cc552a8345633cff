import Observatory.Proofs.Number.Decimal
import Observatory.Proofs.Service.Data
import Mathlib.Order.Bounds.Basic

/-! The extras of a dataset.

Extras are taken from the stored observations, data from the converted ones. The least and
the greatest number that extras report are those of the data wherever every stored number is
told by the data (`extremes_of_told`): rounding keeps the order of doubles, so it does not
matter that extras choose before they round and data round before anyone can choose. A
sentinel is stored and not served, and extras take it for a number (`sentinel_reported`). -/
namespace Observatory
namespace Service
open Registry (Gives)
open Conversion (convert_dated timestamp_of_convert)
variable (config : Config) (c : Catalog) (q : Query)

/-! ### Answers -/

/-- An aggregate of the observations asked for, as it is reported. -/
def reported (d : Dataset) (a : Aggregate) : Option Number.Decimal :=
  (a.of? (Aggregate.numbers (askedFor c d q.timespan))).bind fun x =>
    Number.roundFloat? x d.numberOfDecimals

theorem aggregate_eq (d : Dataset) (a : Aggregate) :
    (onCatalog config c).aggregate d q a = .ok (reported c q d a) := by
  rw [reported, ← observationsWhere_matchObservations c d q]
  rfl

/-- What is reported for a dataset of that kind. -/
theorem aggregatesOf_eq (kind : ValueKind) (d : Dataset) :
    (onCatalog config c).aggregatesOf kind d q =
      .ok (if kind.isNumeric then
        ⟨some (askedFor c d q.timespan).length, reported c q d .least, reported c q d .greatest,
          reported c q d .mean⟩
      else ⟨some (askedFor c d q.timespan).length, none, none, none⟩) := by
  have hcount : (onCatalog config c).store.countObservations d q.matchObservations =
      .ok (askedFor c d q.timespan).length := by
    rw [← observationsWhere_matchObservations c d q]
    rfl
  unfold aggregatesOf
  rw [hcount]
  cases kind.isNumeric with
  | false => rfl
  | true =>
    simp only [aggregate_eq]
    rfl

theorem aggregation_eq {d : Dataset} {kind : ValueKind} {r : Registry}
    (hkind : Gives r.table (.ofDataset d) kind) :
    ((onCatalog config c).aggregation d q r).1 = (onCatalog config c).aggregatesOf kind d q := by
  obtain ⟨converter, hconverter, rfl⟩ := Registry.resolve_of_gives hkind
  unfold aggregation
  rw [← Prod.eta (r.resolve (.ofDataset d)), hconverter]

/-- What is made of the result of an action. -/
theorem bind_pure {α β : Type} (m : Action α) (f : α → β) (r : Registry) :
    ((m >>= fun a => pure (f a) : Action β) r).1 = (m r).1.map f := by
  show (ExceptT.bindCont (fun a => (pure (f a) : Action β)) (m r).1 (m r).2).1 = _
  cases (m r).1 <;> rfl

/-- The extras of a dataset that is served. -/
theorem datasetExtras_eq {id : Id} {d : Dataset} (hserved : Serves c id d) (r : Registry) :
    ((onCatalog config c).datasetExtras id q r).1 =
      ((onCatalog config c).aggregation d q r).1.map fun a =>
        { resultTimes := if (c.resultTimes d).isEmpty then none else some (c.resultTimes d)
          aggregation := if a.isEmpty then none else some a } := by
  unfold datasetExtras
  rw [visibleDataset_of_serves config hserved]
  exact bind_pure ((onCatalog config c).aggregation d q) _ r

/-! ### Numbers among values -/

/-- The numbers among converted values. -/
def numbersOf (values : List OutputValue) : Set ℚ :=
  {r | ∃ v ∈ values, ∃ x, v.value.bind OutputData.decimal? = some x ∧ x.toRat = r}

theorem mem_numbersOf_iff {values : List OutputValue} {outs : List (Option OutputData)}
    (h : (values.map (·.value)).Perm outs) {r : ℚ} :
    r ∈ numbersOf values ↔ ∃ out ∈ outs, ∃ x, out.bind OutputData.decimal? = some x ∧ x.toRat = r := by
  constructor
  · rintro ⟨v, hv, hx⟩
    exact ⟨v.value, h.mem_iff.mp (List.mem_map_of_mem hv), hx⟩
  · rintro ⟨out, hout, hx⟩
    obtain ⟨v, hv, rfl⟩ := List.mem_map.mp (h.mem_iff.mpr hout)
    exact ⟨v, hv, hx⟩

/-- An extreme as it is reported agrees with the values: it is absent where every value is
missing, else it is that extreme of their numbers. -/
structure Agrees (extreme : Set ℚ → ℚ → Prop) (reported : Option Number.Decimal)
    (values : List OutputValue) : Prop where
  absent : reported = none ↔ ∀ v ∈ values, v.value = none
  present : ∀ x, reported = some x → extreme (numbersOf values) x.toRat

/-- The number that is stored: a quantity, or the double of a count. -/
inductive NumberIn : RawValue → Float → Prop
  | quantity (x : Float) : NumberIn (.quantity x) x
  | count (n : Int64) : NumberIn (.count n) (Number.ofInt64 n)

theorem NumberIn.unique {v : RawValue} {x y : Float} (h : NumberIn v x) (h' : NumberIn v y) : x = y := by
  cases h <;> cases h' <;> rfl

theorem number?_eq_some_iff {v : RawValue} {x : Float} : v.number? = some x ↔ NumberIn v x := by
  constructor
  · intro h
    cases v with
    | quantity y => exact Option.some.inj h ▸ .quantity y
    | count n => exact Option.some.inj h ▸ .count n
    | null => exact nomatch h
    | text s => exact nomatch h
    | profile levels => exact nomatch h
  · intro h
    cases h with
    | quantity => rfl
    | count => rfl

/-- An observation whose number is served as it is: a finite one is not taken for missing and
has a place in the answer, and a count has at most fifty-three bits, so its double is exact. -/
structure Told (kind : ValueKind) (noData : NoData) (d : Dataset) (options : Options)
    (o : Observation) : Prop where
  served : ∀ x, NumberIn o.value x → Number.isFinite x = true →
    (Conversion.value? kind noData d options o.value).isSome
  exact : ∀ n, o.value = .count n → n.toInt.natAbs < 2 ^ 53

theorem mem_numbers {os : List Observation} {x : Float} :
    x ∈ Aggregate.numbers os ↔
      (∃ o ∈ os, NumberIn o.value x) ∧ Number.isFinite x = true := by
  rw [Aggregate.numbers, List.mem_filter, List.mem_filterMap]
  simp only [number?_eq_some_iff]

section Value
variable {kind : ValueKind} {noData : NoData} {d : Dataset} {options : Options} {v : RawValue}
  {out : OutputData}

/-- A value of a numeric dataset is a rounded quantity or a count. -/
theorem value_cases (hnumeric : kind.isNumeric = true)
    (h : Conversion.value? kind noData d options v = some out) :
    (∃ x y, v = .quantity x ∧ Number.roundFloat? x d.numberOfDecimals = some y ∧
      out.decimal? = some y) ∨
    ∃ n, v = .count n ∧ out.decimal? = some (.ofInt64 n) := by
  have hread {read? : RawValue → Option ScalarValue}
      (hout : (Conversion.unlessMissing noData read? v).map OutputData.scalar = some out) :
      ∃ s, read? v = some s ∧ out = .scalar s := by
    obtain ⟨s, hs, rfl⟩ := Option.map_eq_some_iff.mp hout
    unfold Conversion.unlessMissing at hs
    split at hs
    · exact nomatch hs
    · exact ⟨s, hs, rfl⟩
  cases kind with
  | text => exact nomatch hnumeric
  | profile => exact nomatch hnumeric
  | quantity =>
    obtain ⟨s, hs, rfl⟩ := hread h
    cases v with
    | quantity x =>
      obtain ⟨y, hy, rfl⟩ := Option.map_eq_some_iff.mp hs
      exact .inl ⟨x, y, rfl, hy, rfl⟩
    | count n =>
      obtain rfl := Option.some.inj hs
      exact .inr ⟨n, rfl, rfl⟩
    | null => exact nomatch hs
    | text s => exact nomatch hs
    | profile levels => exact nomatch hs
  | count =>
    obtain ⟨s, hs, rfl⟩ := hread h
    cases v with
    | count n =>
      obtain rfl := Option.some.inj hs
      exact .inr ⟨n, rfl, rfl⟩
    | quantity x => exact nomatch hs
    | null => exact nomatch hs
    | text s => exact nomatch hs
    | profile levels => exact nomatch hs

/-- A value that is served is the number of its observation, rounded as aggregates are. -/
theorem number_of_value (hnumeric : kind.isNumeric = true)
    (hexact : ∀ n, v = .count n → n.toInt.natAbs < 2 ^ 53)
    (h : Conversion.value? kind noData d options v = some out) :
    ∃ x, NumberIn v x ∧ Number.isFinite x = true ∧
      ∃ a b, Number.roundFloat? x d.numberOfDecimals = some a ∧ out.decimal? = some b ∧
        a.toRat = b.toRat := by
  obtain ⟨x, y, rfl, hy, hout⟩ | ⟨n, rfl, hout⟩ := value_cases hnumeric h
  · obtain ⟨_, _, _, hx⟩ := Number.finite_of_roundFloat? hy
    exact ⟨x, .quantity x, Number.Binary64.isFinite_of_ofFloat hx, y, y, hy, hout, rfl⟩
  · obtain ⟨y, hy, hvalue⟩ := Number.roundFloat?_ofInt64 (hexact n rfl) d.numberOfDecimals
    obtain ⟨_, _, _, hx⟩ := Number.finite_of_roundFloat? hy
    exact ⟨Number.ofInt64 n, .count n, Number.Binary64.isFinite_of_ofFloat hx, y, .ofInt64 n, hy, hout,
      hvalue.trans (Number.Decimal.toRat_ofInt64 n).symm⟩

end Value

/-! ### The least and the greatest -/

/-- The least of finite doubles is one of them. -/
theorem of?_least {xs : List Float} (hxs : ∀ x ∈ xs, Number.isFinite x = true) (hne : xs ≠ []) :
    ∃ x ∈ xs, Aggregate.of? .least xs = some x ∧
      ∀ y ∈ xs, (Number.Binary64.ofFloat x).toRat ≤ (Number.Binary64.ofFloat y).toRat := by
  obtain ⟨hmem, hle⟩ := Number.Binary64.foldl_lesser hxs hne
  exact ⟨_, hmem, if_neg (mt List.isEmpty_iff.mp hne), hle⟩

/-- The greatest of finite doubles is one of them. -/
theorem of?_greatest {xs : List Float} (hxs : ∀ x ∈ xs, Number.isFinite x = true) (hne : xs ≠ []) :
    ∃ x ∈ xs, Aggregate.of? .greatest xs = some x ∧
      ∀ y ∈ xs, (Number.Binary64.ofFloat y).toRat ≤ (Number.Binary64.ofFloat x).toRat := by
  obtain ⟨hmem, hge⟩ := Number.Binary64.foldl_greater hxs hne
  exact ⟨_, hmem, if_neg (mt List.isEmpty_iff.mp hne), hge⟩

section Told
variable {c q} {kind : ValueKind} {noData : NoData} {d : Dataset} {options : Options}
  {values : List OutputValue} (hnumeric : kind.isNumeric = true)
  (htold : ∀ o ∈ askedFor c d q.timespan, Told kind noData d options o)
  (hvalues : (values.map (·.value)).Perm ((askedFor c d q.timespan).map fun o =>
    Conversion.value? kind noData d options o.value))
include hnumeric htold hvalues

/-- A number among the stored ones is served. -/
theorem exists_of_number {x : Float} (hx : x ∈ Aggregate.numbers (askedFor c d q.timespan)) :
    ∃ a, Number.roundFloat? x d.numberOfDecimals = some a ∧ a.toRat ∈ numbersOf values ∧
      ∃ v ∈ values, v.value ≠ none := by
  obtain ⟨⟨o, ho, hnumber⟩, hfinite⟩ := mem_numbers.mp hx
  obtain ⟨out, hout⟩ := Option.isSome_iff_exists.mp ((htold o ho).served x hnumber hfinite)
  obtain ⟨y, hy, _, a, b, ha, hb, hab⟩ := number_of_value hnumeric (htold o ho).exact hout
  obtain rfl := hnumber.unique hy
  obtain ⟨v, hv, hvout⟩ := List.mem_map.mp (hvalues.mem_iff.mpr (List.mem_map.mpr ⟨o, ho, hout⟩))
  refine ⟨a, ha, ⟨v, hv, b, ?_, hab.symm⟩, v, hv, ?_⟩
  · rw [hvout, Option.bind_some, hb]
  · rw [hvout]
    exact Option.some_ne_none out

/-- A value that is served is a number among the stored ones. -/
theorem exists_of_value {v : OutputValue} {out : OutputData} (hv : v ∈ values)
    (hout : v.value = some out) :
    ∃ x ∈ Aggregate.numbers (askedFor c d q.timespan), ∃ a b,
      Number.roundFloat? x d.numberOfDecimals = some a ∧ out.decimal? = some b ∧
        a.toRat = b.toRat := by
  obtain ⟨o, ho, hvalue⟩ := List.mem_map.mp (hvalues.mem_iff.mp (List.mem_map.mpr ⟨v, hv, hout⟩))
  obtain ⟨x, hx, hfinite, a, b, ha, hb, hab⟩ := number_of_value hnumeric (htold o ho).exact hvalue
  exact ⟨x, mem_numbers.mpr ⟨⟨o, ho, hx⟩, hfinite⟩, a, b, ha, hb, hab⟩

/-- Numbers that are served are roundings of the stored ones. -/
theorem exists_of_mem_numbersOf {r : ℚ} (hr : r ∈ numbersOf values) :
    ∃ x ∈ Aggregate.numbers (askedFor c d q.timespan), ∃ a,
      Number.roundFloat? x d.numberOfDecimals = some a ∧ a.toRat = r := by
  obtain ⟨v, hv, y, hy, rfl⟩ := hr
  obtain ⟨out, hout, hdecimal⟩ := Option.bind_eq_some_iff.mp hy
  obtain ⟨x, hx, a, b, ha, hb, hab⟩ := exists_of_value hnumeric htold hvalues hv hout
  obtain rfl := Option.some.inj (hdecimal.symm.trans hb)
  exact ⟨x, hx, a, ha, hab⟩

/-- An aggregate agrees with the values if it chooses one of the numbers, and that, rounded and
served, is the extreme of the served ones. -/
theorem agrees_reported {a : Aggregate} {extreme : Set ℚ → ℚ → Prop}
    (hchosen : Aggregate.numbers (askedFor c d q.timespan) ≠ [] →
      ∃ x ∈ Aggregate.numbers (askedFor c d q.timespan),
        a.of? (Aggregate.numbers (askedFor c d q.timespan)) = some x ∧
        ∀ y, Number.roundFloat? x d.numberOfDecimals = some y → y.toRat ∈ numbersOf values →
          extreme (numbersOf values) y.toRat) :
    Agrees extreme (reported c q d a) values := by
  unfold reported
  by_cases hnone : Aggregate.numbers (askedFor c d q.timespan) = []
  · have habsent : a.of? [] = none := rfl
    rw [hnone, habsent]
    refine ⟨iff_of_true rfl fun v hv => ?_, fun x hx => nomatch hx⟩
    by_contra hsome
    obtain ⟨out, hout⟩ := Option.ne_none_iff_exists'.mp hsome
    obtain ⟨x, hx, _⟩ := exists_of_value hnumeric htold hvalues hv hout
    rw [hnone] at hx
    exact List.not_mem_nil hx
  · obtain ⟨x, hx, hof, hextreme⟩ := hchosen hnone
    obtain ⟨y, hy, hmem, v, hv, hsome⟩ := exists_of_number hnumeric htold hvalues hx
    rw [hof, Option.bind_some, hy]
    refine ⟨iff_of_false (Option.some_ne_none y) fun hnull => hsome (hnull v hv), fun z hz => ?_⟩
    obtain rfl := Option.some.inj hz
    exact hextreme y hy hmem

theorem agrees_least : Agrees IsLeast (reported c q d .least) values := by
  refine agrees_reported hnumeric htold hvalues fun hne => ?_
  obtain ⟨x, hx, hof, hle⟩ := of?_least (fun x hx => (mem_numbers.mp hx).2) hne
  refine ⟨x, hx, hof, fun y hy hmem => ⟨hmem, fun r hr => ?_⟩⟩
  obtain ⟨w, hw, z, hz, rfl⟩ := exists_of_mem_numbersOf hnumeric htold hvalues hr
  exact Number.roundFloat?_mono hy hz (hle w hw)

theorem agrees_greatest : Agrees IsGreatest (reported c q d .greatest) values := by
  refine agrees_reported hnumeric htold hvalues fun hne => ?_
  obtain ⟨x, hx, hof, hge⟩ := of?_greatest (fun x hx => (mem_numbers.mp hx).2) hne
  refine ⟨x, hx, hof, fun y hy hmem => ⟨hmem, fun r hr => ?_⟩⟩
  obtain ⟨w, hw, z, hz, rfl⟩ := exists_of_mem_numbersOf hnumeric htold hvalues hr
  exact Number.roundFloat?_mono hz hy (hge w hw)

end Told

/-- Values converted one by one have the values of their observations. -/
theorem map_value {kind : ValueKind} {noData : NoData} {d : Dataset} {options : Options}
    {os : List Observation} {values : List OutputValue}
    (h : List.Forall₂ (fun o v => Conversion.convert kind noData d options (some o) = .ok v) os values) :
    values.map (·.value) = os.map fun o => Conversion.value? kind noData d options o.value := by
  refine Outcomes.map_answers h fun o v hv => ?_
  obtain ⟨time, htime⟩ := Option.isSome_iff_exists.mp (timestamp_of_convert hv).1
  obtain ⟨w, hw, _, hvalue⟩ := convert_dated kind noData d options
    ((timestamp_of_convert hv).2.symm.trans htime)
  obtain rfl := Except.ok.inj (hv.symm.trans hw)
  exact hvalue

section Answer
variable {config c q} {id : Id} {r : Registry} {d : Dataset} {kind : ValueKind}
  (hserved : Serves c id d) (hkind : Gives r.table (.ofDataset d) kind)
include hserved hkind

theorem exists_data (hdated : ∀ o ∈ askedFor c d q.timespan, o.samplingEnd ≠ none) :
    ∃ output, ((onCatalog config c).data id q r).1 = .ok output := by
  have hanswer := dataAnswer_data config c id q r
  generalize ((onCatalog config c).data id q r).1 = answer at hanswer
  cases hanswer with
  | noDataset h => exact absurd hserved (h d)
  | unknownType hserved' h =>
    obtain rfl := hserved.unique hserved'
    obtain ⟨row, hrow, _⟩ := hkind
    exact absurd hrow.key_eq (h row hrow.mem)
  | missingTimestamp hserved' _ hall hfirst =>
    obtain rfl := hserved.unique hserved'
    rw [← hall] at hfirst
    exact absurd hfirst.key_eq (hdated _ hfirst.mem)
  | values => exact ⟨_, rfl⟩

/-- The values that are served are those of the observations asked for. -/
theorem perm_of_data {output : DataOutput} (hdata : ((onCatalog config c).data id q r).1 = .ok output) :
    (output.values.map (·.value)).Perm ((askedFor c d q.timespan).map fun o =>
      Conversion.value? kind config.noData d q.options o.value) := by
  have hanswer := dataAnswer_data config c id q r
  rw [hdata] at hanswer
  cases hanswer with
  | values hserved' hkind' _ hos hvalues =>
    obtain rfl := hserved.unique hserved'
    obtain rfl := hkind.unique hkind'
    rw [map_value hvalues]
    exact hos.perm.map _

/-- The extras of a dataset of numbers. -/
theorem datasetExtras_numeric (hnumeric : kind.isNumeric = true) :
    ((onCatalog config c).datasetExtras id q r).1 = .ok
      { resultTimes := if (c.resultTimes d).isEmpty then none else some (c.resultTimes d)
        aggregation := some ⟨some (askedFor c d q.timespan).length, reported c q d .least,
          reported c q d .greatest, reported c q d .mean⟩ } := by
  rw [datasetExtras_eq config c q hserved, aggregation_eq config c q hkind, aggregatesOf_eq,
    if_pos hnumeric]
  rfl

end Answer

/-- **The extremes that are reported are those of the data**, where every number stored is told
by the data: the least (the greatest) is absent where all values are missing, else it is the
least (the greatest) of the numbers among them. -/
theorem extremes_of_told {config : Config} {c : Catalog} {q : Query} {id : Id} {r r' : Registry}
    {output : DataOutput} {d : Dataset} {kind : ValueKind} (htable : r'.table = r.table)
    (hdata : ((onCatalog config c).data id q r).1 = .ok output) (hserved : Serves c id d)
    (hkind : Gives r.table (.ofDataset d) kind) (hnumeric : kind.isNumeric = true)
    (htold : ∀ o ∈ askedFor c d q.timespan, Told kind config.noData d q.options o) :
    ∃ extras aggregation, ((onCatalog config c).datasetExtras id q r').1 = .ok extras ∧
      extras.aggregation = some aggregation ∧ Agrees IsLeast aggregation.min output.values ∧
      Agrees IsGreatest aggregation.max output.values := by
  have hvalues := perm_of_data hserved hkind hdata
  rw [← htable] at hkind
  exact ⟨_, _, datasetExtras_numeric hserved hkind hnumeric, rfl,
    agrees_least hnumeric htold hvalues, agrees_greatest hnumeric htold hvalues⟩

/-! ### A sentinel among the extremes -/

/-- A dataset of quantities with two decimals. -/
def temperatures : Dataset := { Catalog.plainDataset 1 1 true with numberOfDecimals := some 2 }

/-- The first moment of a year. -/
def newYear : Instant where
  date := ⟨2024, 1, 1, by decide, by decide, by decide⟩
  hour := ⟨0, by decide⟩
  minute := ⟨0, by decide⟩
  second := ⟨0, by decide⟩
  nanosecond := ⟨0, by decide⟩

/-- A measurement of the dataset, always at the same time. -/
def measurement (v : RawValue) : Observation := .sampledAt 1 1 newYear v

/-- The dataset with a measurement of each value. -/
def measured (values : List RawValue) : Catalog := ⟨fun _ => [], [temperatures], values.map measurement⟩

/-- The service over it, with one sentinel. -/
def station (values : List RawValue) : Service :=
  onCatalog { Config.standard with noDataValues := ["-9999"] } (measured values)

/-- A request for all data. -/
def everything : Query := .unrestricted .standard

theorem serves_measured (values : List RawValue) : Serves (measured values) 1 temperatures :=
  serves_iff.mp rfl

theorem kind_temperatures (noData : NoData) :
    Gives (Registry.standard noData).table (.ofDataset temperatures) .quantity := by
  rw [← Registry.kindInTable?_eq_some_iff]
  show kindInTable? Registry.standardTable (.ofDataset temperatures) = some .quantity
  decide

theorem askedFor_measured (values : List RawValue) :
    askedFor (measured values) temperatures everything.timespan = values.map measurement := by
  show askedFor (measured values) temperatures none = _
  rw [askedFor_none]
  refine List.filter_eq_self.mpr fun o ho => ?_
  obtain ⟨v, _, rfl⟩ := List.mem_map.mp ho
  rfl

/-- What is served for a value. -/
def served (v : RawValue) : Option OutputData :=
  Conversion.value? .quantity ⟨["-9999"]⟩ temperatures .standard v

theorem exists_data_station (values : List RawValue) :
    ∃ output, ((station values).data 1 everything (station values).freshRegistry).1 = .ok output ∧
      (output.values.map (·.value)).Perm (values.map served) := by
  have hkind := kind_temperatures ⟨["-9999"]⟩
  obtain ⟨output, hdata⟩ : ∃ output,
      ((station values).data 1 everything (station values).freshRegistry).1 = .ok output := by
    refine exists_data (serves_measured values) hkind fun o ho => ?_
    rw [askedFor_measured] at ho
    obtain ⟨v, _, rfl⟩ := List.mem_map.mp ho
    exact Option.some_ne_none _
  have hvalues := perm_of_data (serves_measured values) hkind hdata
  rw [askedFor_measured, List.map_map] at hvalues
  exact ⟨output, hdata, hvalues⟩

/-- A quantity and a count are served, and are the extremes. -/
theorem extremes_of_station : ∃ output extras aggregation,
    ((station [.quantity 21.5, .count 19]).data 1 everything
      (station [.quantity 21.5, .count 19]).freshRegistry).1 = .ok output ∧
    ((station [.quantity 21.5, .count 19]).datasetExtras 1 everything
      (station [.quantity 21.5, .count 19]).freshRegistry).1 = .ok extras ∧
    extras.aggregation = some aggregation ∧ Agrees IsLeast aggregation.min output.values ∧
    Agrees IsGreatest aggregation.max output.values := by
  obtain ⟨output, hdata, _⟩ := exists_data_station [.quantity 21.5, .count 19]
  have hquantity : Told .quantity ⟨["-9999"]⟩ temperatures .standard (measurement (.quantity 21.5)) :=
    ⟨fun _ _ _ => by decide +kernel, fun n hn => nomatch hn⟩
  have hcount : Told .quantity ⟨["-9999"]⟩ temperatures .standard (measurement (.count 19)) :=
    ⟨fun _ _ _ => by decide +kernel, fun n hn => by
      obtain rfl := RawValue.count.inj hn
      decide⟩
  obtain ⟨extras, aggregation, hextras, hrest⟩ := extremes_of_told rfl hdata
    (serves_measured _) (kind_temperatures _) rfl (by
      rw [askedFor_measured]
      exact List.forall_mem_cons.mpr ⟨hquantity, List.forall_mem_singleton.mpr hcount⟩)
  exact ⟨output, extras, aggregation, hdata, hextras, hrest⟩

/-- A sentinel is not served, and is reported as the least number all the same. -/
theorem sentinel_reported : ∃ output extras aggregation,
    ((station [.quantity 21.5, .quantity (-9999)]).data 1 everything
      (station [.quantity 21.5, .quantity (-9999)]).freshRegistry).1 = .ok output ∧
    ((station [.quantity 21.5, .quantity (-9999)]).datasetExtras 1 everything
      (station [.quantity 21.5, .quantity (-9999)]).freshRegistry).1 = .ok extras ∧
    extras.aggregation = some aggregation ∧ aggregation.min.map (·.toRat) = some (-9999) ∧
    numbersOf output.values = {43 / 2} ∧ ¬ Agrees IsLeast aggregation.min output.values := by
  obtain ⟨output, hdata, hvalues⟩ := exists_data_station [.quantity 21.5, .quantity (-9999)]
  have hquantity : (served (.quantity 21.5)).bind OutputData.decimal? = Number.Decimal.of? 2150 2 := by
    decide +kernel
  have hsentinel : (served (.quantity (-9999))).bind OutputData.decimal? = none := by decide +kernel
  have hleast : reported (measured [.quantity 21.5, .quantity (-9999)]) everything temperatures
      .least = Number.Decimal.of? (-999900) 2 := by decide +kernel
  obtain ⟨x, hx⟩ := Number.Decimal.of?_isSome (show (2150 : Int).natAbs ≤ _ by decide)
    (show 2 ≤ Number.Decimal.maxScale by decide)
  obtain ⟨y, hy⟩ := Number.Decimal.of?_isSome (show (-999900 : Int).natAbs ≤ _ by decide)
    (show 2 ≤ Number.Decimal.maxScale by decide)
  have hxvalue : x.toRat = 43 / 2 := by
    rw [Number.Decimal.toRat_of? hx]
    norm_num
  have hyvalue : y.toRat = -9999 := by
    rw [Number.Decimal.toRat_of? hy]
    norm_num
  rw [hx] at hquantity
  rw [hy] at hleast
  have hnumbers : numbersOf output.values = {43 / 2} := by
    ext r
    rw [mem_numbersOf_iff hvalues, Set.mem_singleton_iff]
    constructor
    · rintro ⟨out, hout, z, hz, rfl⟩
      rcases List.mem_pair.mp hout with hout | hout
      · rw [hout, hquantity] at hz
        obtain rfl := Option.some.inj hz
        exact hxvalue
      · rw [hout, hsentinel] at hz
        exact nomatch hz
    · rintro rfl
      exact ⟨_, List.mem_cons_self .., x, hquantity, hxvalue⟩
  refine ⟨output, _, _, hdata, datasetExtras_numeric (serves_measured _) (kind_temperatures _) rfl,
    rfl, ?_, hnumbers, fun hagrees => ?_⟩
  · rw [hleast, Option.map_some, hyvalue]
  · dsimp only at hagrees
    rw [hleast] at hagrees
    have hmem := (hagrees.present y rfl).1
    rw [hnumbers, hyvalue, Set.mem_singleton_iff] at hmem
    norm_num at hmem

end Service
end Observatory
