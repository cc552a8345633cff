import Observatory.Value.Conversion

/-! Converted observations.

Conversion gives an observation its surroundings and then its value (`convert_eq`). It fails
exactly where there is no time (`convert_undated`, `convert_dated`), and what surrounds the
value depends neither on the kind nor on the sentinels. -/
namespace Observatory.Conversion
variable {kind : ValueKind} {noData : NoData} {d : Dataset} {options : Options} {o : Observation}

/-- An observation is converted to its surroundings with its value among them. -/
theorem convert_eq (kind : ValueKind) (noData : NoData) (d : Dataset) (options : Options)
    (o : Observation) :
    convert kind noData d options (some o) =
      (frame d options o).map fun output =>
        { output with value := value? kind noData d options o.value } := by
  show (do
      let output ← frame d options o
      return { output with value := value? kind noData d options o.value }) = _
  cases frame d options o <;> rfl

/-! ### Surroundings -/

/-- The result time of an observation, if it says more than the end of sampling does. -/
def distinctTime? (o : Observation) : Option Instant :=
  if Dataset.isDistinctResultTime o.resultTime o.samplingEnd then o.resultTime else none

theorem frame_undated (h : o.samplingEnd = none) :
    frame d options o = .error (.missingTimestamp o.id) := by
  unfold frame
  rw [h]

/-- The surroundings of an observation with a time, part by part. -/
theorem frame_dated {stop : Instant} (h : o.samplingEnd = some stop) :
    frame d options o = .ok {
      timestart := if options.showTimeIntervals then o.samplingStart else none
      timestamp := some stop
      value := none
      validTime := if options.expanded then TimeInterval.ofBounds? o.validStart o.validEnd else none
      resultTime := if options.expanded then distinctTime? o else none
      parameters := if options.expanded then o.parameters else []
      geometry := if options.expanded || d.mobile then o.geometry else none } := by
  unfold frame distinctTime?
  rw [h]
  cases options.expanded <;> simp

/-! ### Times -/

theorem convert_undated (h : o.samplingEnd = none) :
    convert kind noData d options (some o) = .error (.missingTimestamp o.id) := by
  rw [convert_eq, frame_undated h]
  rfl

/-- An observation with a time is converted to a value at that time. -/
theorem convert_dated (kind : ValueKind) (noData : NoData) (d : Dataset) (options : Options)
    {time : Instant} (h : o.samplingEnd = some time) :
    ∃ v, convert kind noData d options (some o) = .ok v ∧ v.timestamp = some time ∧
      v.value = value? kind noData d options o.value := by
  rw [convert_eq, frame_dated h]
  exact ⟨_, rfl, rfl, rfl⟩

theorem timestamp_of_convert {v : OutputValue} (h : convert kind noData d options (some o) = .ok v) :
    v.timestamp.isSome ∧ v.timestamp = o.samplingEnd := by
  cases ho : o.samplingEnd with
  | none => exact absurd ((convert_undated ho).symm.trans h) (by simp)
  | some time =>
    obtain ⟨w, hw, htime, _⟩ := convert_dated kind noData d options ho
    obtain rfl := Except.ok.inj (h.symm.trans hw)
    rw [htime]
    exact ⟨rfl, rfl⟩

/-! ### Result times -/

/-- A value tells the result time of its observation where everything is asked for. -/
theorem resultTime_of_convert {v : OutputValue} (hexpanded : options.expanded = true)
    (h : convert kind noData d options (some o) = .ok v) : v.resultTime = distinctTime? o := by
  rw [convert_eq] at h
  cases ho : o.samplingEnd with
  | none =>
    rw [frame_undated ho] at h
    exact nomatch h
  | some stop =>
    rw [frame_dated ho] at h
    obtain rfl := Except.ok.inj h
    exact if_pos hexpanded

end Observatory.Conversion
