import Observatory.Proofs.Outcomes
import Observatory.Proofs.Service.Hiding
import Observatory.Proofs.Time.Order
import Observatory.Proofs.Value.Conversion
import Observatory.Proofs.Value.Resolution

/-! The data of a dataset.

A request for the data of a dataset fails for the first reason there is (the dataset is not
served, its values have no converter, an observation has no time), or gives one value for
every observation asked for, in the order of time. `DataAnswer` says which of these it is
and what is given; the service over a catalog answers so (`dataAnswer_data`), and
`data_in_order` adds what a caller can rely on about times. -/
namespace Observatory.Service
open Records (IsFirst)
open Registry (Gives)
open Conversion (convert_undated convert_dated timestamp_of_convert)

/-! ### The order of observations -/

/-- An observation may stand before another: it has no time, or the other one ends no earlier. -/
def NotAfter (a b : Observation) : Prop := ∀ s ∈ a.samplingEnd, ∃ t ∈ b.samplingEnd, s ≤ t

theorem inOrder_iff {a b : Observation} : inOrder a b = true ↔ NotAfter a b := by
  unfold inOrder NotAfter
  cases a.samplingEnd <;> cases b.samplingEnd <;> simp

theorem inOrder_trans (a b d : Observation) (hab : inOrder a b = true) (hbd : inOrder b d = true) :
    inOrder a d = true := by
  unfold inOrder at *
  cases ha : a.samplingEnd with
  | none => rfl
  | some s =>
    cases hb : b.samplingEnd with
    | none => simp [ha, hb] at hab
    | some t =>
      cases hd : d.samplingEnd with
      | none => simp [hb, hd] at hbd
      | some u =>
        simp only [ha, hb, hd, decide_eq_true_eq] at *
        exact Int.le_trans hab hbd

theorem inOrder_total (a b : Observation) : (inOrder a b || inOrder b a) = true := by
  unfold inOrder
  cases a.samplingEnd with
  | none => rfl
  | some s =>
    cases b.samplingEnd with
    | none => rfl
    | some t =>
      rw [Bool.or_eq_true, decide_eq_true_eq, decide_eq_true_eq]
      exact Int.le_total _ _

/-- Observations tie exactly where they end at the same time, or neither says when. -/
theorem tied_iff (a b : Observation) : (inOrder a b && inOrder b a) = true ↔ a.samplingEnd = b.samplingEnd := by
  unfold inOrder
  cases a.samplingEnd with
  | none => cases b.samplingEnd <;> simp
  | some s =>
    cases b.samplingEnd with
    | none => simp
    | some t =>
      rw [Bool.and_eq_true, decide_eq_true_eq, decide_eq_true_eq, Option.some.injEq]
      exact ⟨fun h => Instant.ordinal_injective (Int.le_antisymm h.1 h.2),
        fun h => h ▸ ⟨Int.le_refl _, Int.le_refl _⟩⟩

/-- Observations put in the order of time: none is lost or doubled, and those that tie stay
as they were. -/
structure Chronological (given ordered : List Observation) : Prop where
  perm : ordered.Perm given
  pairwise : ordered.Pairwise NotAfter
  stable : ∀ time : Option Instant,
    ordered.filter (·.samplingEnd = time) = given.filter (·.samplingEnd = time)

theorem chronological_mergeSort (os : List Observation) :
    Chronological os (os.mergeSort inOrder) where
  perm := os.mergeSort_perm inOrder
  pairwise := (List.pairwise_mergeSort inOrder_trans inOrder_total os).imp inOrder_iff.mp
  stable time := by
    have hties : (os.filter (·.samplingEnd = time)).Pairwise fun a b => inOrder a b = true := by
      refine List.pairwise_of_forall_mem_list fun a ha b hb => ?_
      have ha := of_decide_eq_true (List.mem_filter.mp ha).2
      have hb := of_decide_eq_true (List.mem_filter.mp hb).2
      exact (Bool.and_eq_true_iff.mp ((tied_iff a b).mpr (ha.trans hb.symm))).1
    have hsub := (List.sublist_mergeSort inOrder_trans inOrder_total hties
      List.filter_sublist).filter fun o => o.samplingEnd = time
    rw [List.filter_filter] at hsub
    simp only [Bool.and_self] at hsub
    exact (hsub.eq_of_length (((os.mergeSort_perm inOrder).filter _).length_eq.symm)).symm

/-- The first observation without a time stays the first. -/
theorem Chronological.isFirst_undated {given ordered : List Observation}
    (h : Chronological given ordered) {o : Observation}
    (ho : IsFirst (·.samplingEnd) none given o) : IsFirst (·.samplingEnd) none ordered o := by
  rw [← Records.head?_filter_iff] at ho ⊢
  rw [h.stable none, ho]

/-! ### The observations asked for -/

/-- An observation ends in an interval: not before its start and not after its stop, where it
has these. -/
def EndsIn (interval : TimeInterval) (o : Observation) : Prop :=
  ∃ t ∈ o.samplingEnd, (∀ start ∈ interval.start, start ≤ t) ∧ ∀ stop ∈ interval.stop, t ≤ stop

instance {interval : TimeInterval} : DecidablePred (EndsIn interval) := fun o =>
  inferInstanceAs (Decidable (∃ t ∈ o.samplingEnd,
    (∀ start ∈ interval.start, start ≤ t) ∧ ∀ stop ∈ interval.stop, t ≤ stop))

/-- The observations of a dataset that a timespan asks for, as they are stored: those that name
the dataset and end in the timespan, if there is one. -/
def askedFor (c : Catalog) (d : Dataset) (timespan : Option TimeInterval) : List Observation :=
  c.observations.filter fun o =>
    decide (o.dataset = d.id ∧ ∀ interval ∈ timespan, EndsIn interval o)

theorem mem_askedFor {c : Catalog} {d : Dataset} {timespan : Option TimeInterval}
    {o : Observation} : o ∈ askedFor c d timespan ↔
      o ∈ c.observations ∧ o.dataset = d.id ∧ ∀ interval ∈ timespan, EndsIn interval o := by
  rw [askedFor, List.mem_filter, decide_eq_true_iff]

theorem contains_iff {interval : TimeInterval} {t : Instant} :
    interval.contains t = true ↔
      (∀ start ∈ interval.start, start ≤ t) ∧ ∀ stop ∈ interval.stop, t ≤ stop := by
  unfold TimeInterval.contains
  cases interval.start <;> cases interval.stop <;> simp

theorem evaluate_matchObservations (q : Query) (resolver : Resolver) (o : Observation) :
    q.matchObservations.evaluate resolver (Catalog.observationRow o) = true ↔
      ∀ interval ∈ q.timespan, EndsIn interval o := by
  unfold Query.matchObservations Restriction.timespan
  rw [Predicate.evaluate_allOf, List.all_cons, List.all_nil, Bool.and_true]
  cases q.timespan with
  | none => simp
  | some interval =>
    show Predicate.evaluate resolver (Catalog.observationRow o) (.within .samplingEnd interval) = _ ↔ _
    rw [Predicate.evaluate]
    unfold Catalog.observationRow EndsIn
    cases o.samplingEnd with
    | none => simp [Cell.ofInstant?]
    | some t => simp [Cell.ofInstant?, contains_iff]

theorem observationsWhere_matchObservations (c : Catalog) (d : Dataset) (q : Query) :
    c.observationsWhere d q.matchObservations = askedFor c d q.timespan := by
  unfold Catalog.observationsWhere Catalog.observationsOf askedFor
  rw [List.filter_filter]
  refine List.filter_congr fun o _ => ?_
  rw [Bool.eq_iff_iff, Bool.and_eq_true, decide_eq_true_iff, evaluate_matchObservations, beq_iff_eq,
    and_comm]

theorem askedFor_none (c : Catalog) (d : Dataset) : askedFor c d none = c.observationsOf d :=
  List.filter_congr fun o _ => by
    rw [Bool.eq_iff_iff, decide_eq_true_iff, beq_iff_eq]
    simp

/-- An observation that a timespan asks for has a time. -/
theorem dated_of_mem_askedFor {c : Catalog} {d : Dataset} {interval : TimeInterval}
    {o : Observation} (h : o ∈ askedFor c d (some interval)) : o.samplingEnd ≠ none := by
  obtain ⟨t, ht, _⟩ := (mem_askedFor.mp h).2.2 interval rfl
  rw [Option.mem_def.mp ht]
  exact Option.some_ne_none t

/-! ### Conversion in order -/

/-- Whether a value is not later than another. Both have a time. -/
def NotLater (v w : OutputValue) : Prop :=
  ∃ s t, v.timestamp = some s ∧ w.timestamp = some t ∧ s ≤ t

/-- Values converted in the order of time have times in that order. -/
theorem pairwise_notLater {kind : ValueKind} {noData : NoData} {d : Dataset} {options : Options}
    {os : List Observation} {values : List OutputValue}
    (hos : os.Pairwise NotAfter)
    (h : List.Forall₂ (fun o v => Conversion.convert kind noData d options (some o) = .ok v) os values) :
    values.Pairwise NotLater := by
  induction h with
  | nil => exact .nil
  | @cons o v os values hv hrest ih =>
    obtain ⟨hfirst, hos⟩ := List.pairwise_cons.mp hos
    refine List.pairwise_cons.mpr ⟨fun w hw => ?_, ih hos⟩
    obtain ⟨p, hp, hconvert⟩ := Outcomes.exists_of_answer hrest hw
    obtain ⟨hs, hso⟩ := timestamp_of_convert hv
    obtain ⟨_, htp⟩ := timestamp_of_convert hconvert
    obtain ⟨s, hs⟩ := Option.isSome_iff_exists.mp hs
    obtain ⟨t, ht, hle⟩ := hfirst p hp s (hso ▸ hs)
    exact ⟨s, t, hs, htp.trans ht, hle⟩

/-! ### Answers -/

/-- **What a request for the data of a dataset comes to**, given the converter table: the first
reason to fail that there is, or one value for every observation asked for, in the order of
time. Only where no timespan is given can an observation be without a time. -/
inductive DataAnswer (config : Config) (c : Catalog) (table : List Descriptor) (id : Id) (q : Query) :
    Except Error DataOutput → Prop where
  | noDataset (hserved : ∀ d, ¬ Serves c id d) :
    DataAnswer config c table id q (.error (.noDataset id))
  | unknownType {d : Dataset} (hserved : Serves c id d)
    (hkind : ∀ row ∈ table, row.key ≠ (TypeKey.ofDataset d).text) :
    DataAnswer config c table id q (.error (.unknownType (TypeKey.ofDataset d).text))
  | missingTimestamp {d : Dataset} {kind : ValueKind} {o : Observation}
    (hserved : Serves c id d) (hkind : Gives table (.ofDataset d) kind)
    (hall : q.timespan = none) (hfirst : IsFirst (·.samplingEnd) none (askedFor c d none) o) :
    DataAnswer config c table id q (.error (.missingTimestamp o.id))
  | values {d : Dataset} {kind : ValueKind} {os : List Observation} {values : List OutputValue}
    (hserved : Serves c id d) (hkind : Gives table (.ofDataset d) kind)
    (hdated : ∀ o ∈ askedFor c d q.timespan, o.samplingEnd ≠ none)
    (hos : Chronological (askedFor c d q.timespan) os)
    (hvalues : List.Forall₂
      (fun o v => Conversion.convert kind config.noData d q.options (some o) = .ok v) os values) :
    DataAnswer config c table id q (.ok ⟨d.id, d.valueKind, values⟩)

variable (config : Config) (c : Catalog) (id : Id) (q : Query)

theorem convertAll_eq (kind : ValueKind) (d : Dataset) :
    (onCatalog config c).convertAll kind d q =
      (((askedFor c d q.timespan).mergeSort inOrder).mapM fun o =>
        Conversion.convert kind config.noData d q.options (some o)).map fun values =>
          ⟨d.id, d.valueKind, values⟩ := by
  rw [← observationsWhere_matchObservations c d q]
  rfl

/-- The data of a dataset that is served, by whether each observation asked for has a time. -/
theorem dataAnswer_convertAll {table : List Descriptor} {d : Dataset} {kind : ValueKind}
    (hserved : Serves c id d) (hkind : Gives table (.ofDataset d) kind) :
    DataAnswer config c table id q ((onCatalog config c).convertAll kind d q) := by
  have hos := chronological_mergeSort (askedFor c d q.timespan)
  have hconvert (o : Observation) (ho : o.samplingEnd ≠ none) :
      ∃ v, Conversion.convert kind config.noData d q.options (some o) = .ok v := by
    obtain ⟨time, htime⟩ := Option.ne_none_iff_exists'.mp ho
    obtain ⟨v, hv, _⟩ := convert_dated kind config.noData d q.options htime
    exact ⟨v, hv⟩
  rw [convertAll_eq]
  by_cases hundated : ∃ o ∈ askedFor c d q.timespan, o.samplingEnd = none
  · obtain ⟨o, hfirst⟩ := Records.exists_isFirst_iff.mpr hundated
    have hordered := Records.find?_eq_some_iff.mpr (hos.isFirst_undated hfirst)
    rw [Outcomes.mapM_first hordered (convert_undated hfirst.key_eq) fun p hp =>
      hconvert p (by simpa using hp)]
    cases hspan : q.timespan with
    | none => exact .missingTimestamp hserved hkind hspan (hspan ▸ hfirst)
    | some interval =>
      rw [hspan] at hfirst
      exact absurd hfirst.key_eq (dated_of_mem_askedFor hfirst.mem)
  · have hdated (o : Observation) (ho : o ∈ askedFor c d q.timespan) : o.samplingEnd ≠ none :=
      fun hnone => hundated ⟨o, ho, hnone⟩
    obtain ⟨values, hvalues, hall⟩ := Outcomes.mapM_answers fun o ho =>
      hconvert o (hdated o (hos.perm.mem_iff.mp ho))
    rw [hvalues]
    exact .values hserved hkind hdated hos hall

/-- What is done with a converter is done with the one that the registry hands out. -/
theorem converter_bind {α : Type} (f : Converter → Except Error α) (key : TypeKey) (r : Registry) :
    ((Registry.converter key >>= fun converter => liftM (f converter) : Action α) r).1 =
      (r.resolve key).1 >>= f := by
  show (ExceptT.bindCont (fun converter => (liftM (f converter) : Action α)) (r.resolve key).1
    (r.resolve key).2).1 = _
  cases (r.resolve key).1 with
  | error e => rfl
  | ok converter =>
    show ((liftM (f converter) : Action α) _).1 = f converter
    cases f converter <;> rfl

theorem dataAnswer_data (r : Registry) :
    DataAnswer config c r.table id q ((onCatalog config c).data id q r).1 := by
  unfold data
  by_cases hserved : ∃ d, Serves c id d
  · obtain ⟨d, hserved⟩ := hserved
    rw [visibleDataset_of_serves config hserved]
    show DataAnswer config c r.table id q ((Registry.converter (.ofDataset d) >>= fun converter =>
      liftM ((onCatalog config c).convertAll converter.kind d q) : Action DataOutput) r).1
    rw [converter_bind]
    rcases Registry.gives_or_no_row r.table (.ofDataset d) with ⟨kind, hkind⟩ | hnone
    · obtain ⟨converter, hconverter, rfl⟩ := Registry.resolve_of_gives hkind
      rw [hconverter]
      exact dataAnswer_convertAll config c id q hserved hkind
    · rw [Registry.resolve_of_no_row hnone]
      exact .unknownType hserved hnone
  · have hnone : ∀ d, ¬ Serves c id d := fun d hd => hserved ⟨d, hd⟩
    rw [visibleDataset_of_not_serves config hnone]
    exact .noDataset hnone

/-- **The data of a dataset** are one value for every observation asked for, in the order of
time, or there is a reason why not; every value has a time and none is earlier than the one
before. A request for a timespan never fails for lack of a time. -/
theorem data_in_order (r : Registry) :
    DataAnswer config c r.table id q ((onCatalog config c).data id q r).1 ∧
    (∀ output, ((onCatalog config c).data id q r).1 = .ok output →
      (∀ v ∈ output.values, v.timestamp.isSome) ∧ output.values.Pairwise NotLater) ∧
    (q.timespan ≠ none → ∀ o, ((onCatalog config c).data id q r).1 ≠ .error (.missingTimestamp o)) := by
  have hanswer := dataAnswer_data config c id q r
  refine ⟨hanswer, fun output houtput => ?_, fun hspan o herror => ?_⟩
  · rw [houtput] at hanswer
    cases hanswer with
    | values hserved hkind hdated hos hvalues =>
      refine ⟨fun v hv => ?_, pairwise_notLater hos.pairwise hvalues⟩
      obtain ⟨o, _, hconvert⟩ := Outcomes.exists_of_answer hvalues hv
      exact (timestamp_of_convert hconvert).1
  · rw [herror] at hanswer
    cases hanswer with
    | missingTimestamp hserved hkind hall hfirst => exact hspan hall

end Observatory.Service
