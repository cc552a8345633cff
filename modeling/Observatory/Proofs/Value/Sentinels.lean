import Observatory.Proofs.Catalog.Reachability
import Observatory.Proofs.Value.Conversion

/-! What sentinels do to values.

Sentinels only erase: an observation is converted as it is without any sentinel, and then
loses its value, or a profile the values of some of its levels (`convert_eq_erased`). A
sentinel says by itself which values it stands for (`isMissing_iff`), so that neither the order
of the sentinels nor their repetition matters, and more of them never bring a value back. -/
namespace Observatory

/-! ### Which values are missing -/

namespace NoData

/-- No value is agreed on. -/
def nothing : NoData := ⟨[]⟩

theorem isMissing_nothing (v : RawValue) : nothing.isMissing v = v.isNull := by
  cases v <;> rfl

/-- A value is missing under two lists of sentinels together if it is under one of them. -/
theorem isMissing_append (S T : List String) (v : RawValue) :
    isMissing ⟨S ++ T⟩ v = (isMissing ⟨S⟩ v || isMissing ⟨T⟩ v) := by
  cases v with
  | null => rfl
  | quantity x =>
    show (decimals ⟨S ++ T⟩).any _ = _
    rw [decimals, List.filterMap_append, List.any_append]
    rfl
  | count n =>
    show (integers ⟨S ++ T⟩).contains n = _
    rw [integers, List.filterMap_append, List.contains_append]
    rfl
  | text s => exact List.contains_append
  | profile levels => rfl

/-- A value is missing if it is null or one of the sentinels stands for it. -/
theorem isMissing_iff {n : NoData} {v : RawValue} :
    n.isMissing v = true ↔ v.isNull = true ∨ ∃ s ∈ n.raw, isMissing ⟨[s]⟩ v = true := by
  obtain ⟨S⟩ := n
  induction S with
  | nil =>
    rw [← isMissing_nothing]
    simp [nothing]
  | cons s rest ih =>
    -- One sentinel in front of the others is one list in front of another.
    rw [show s :: rest = [s] ++ rest from rfl, isMissing_append, Bool.or_eq_true, ih]
    simp only [List.cons_append, List.nil_append, List.mem_cons, exists_eq_or_imp]
    exact or_left_comm

/-- More sentinels leave what is missing missing. -/
theorem isMissing_mono {S T : List String} (h : S ⊆ T) {v : RawValue}
    (hv : isMissing ⟨S⟩ v = true) : isMissing ⟨T⟩ v = true := by
  rw [isMissing_iff] at hv ⊢
  exact hv.imp_right fun ⟨s, hs, hsv⟩ => ⟨s, h hs, hsv⟩

/-- Neither the order of the sentinels nor their repetition matters. -/
theorem isMissing_congr {S T : List String} (h : ∀ s, s ∈ S ↔ s ∈ T) :
    isMissing ⟨S⟩ = isMissing ⟨T⟩ := by
  funext v
  exact Bool.eq_iff_iff.mpr
    ⟨isMissing_mono fun s => (h s).mp, isMissing_mono fun s => (h s).mpr⟩

end NoData

namespace Conversion
variable (noData : NoData)

/-! ### Values without what is missing -/

/-- A profile without the values of those levels that are missing. -/
def eraseLevels (levels : List Observation) (p : Profile) : Profile :=
  { p with items := p.items.mapIdx fun i item =>
      if levels[i]?.any fun level => noData.isMissing level.value then { item with value := none }
      else item }

/-- A converted value without what is missing of the raw one. -/
def erase (v : RawValue) (out : OutputData) : Option OutputData :=
  match v, out with
  | .profile levels, .profile p => some (.profile (eraseLevels noData levels p))
  | v, out => if noData.isMissing v then none else some out

/-- The answer for an observation without what is missing of its value. -/
def erased (o : Option Observation) (output : OutputValue) : OutputValue :=
  match o with
  | none => output
  | some o => { output with value := output.value.bind (erase noData o.value) }

section Values
variable {α : Type} (d : Dataset) (options : Options)

/-- What is read of a value is read of it without sentinels, unless it is missing. -/
theorem unlessMissing_eq (read? : RawValue → Option α) (v : RawValue) :
    unlessMissing noData read? v =
      if noData.isMissing v then none else unlessMissing .nothing read? v := by
  by_cases h : noData.isMissing v = true
  · simp [unlessMissing, h]
  · have hnull : NoData.nothing.isMissing v ≠ true := by
      -- What is null is missing whatever the sentinels are.
      rw [NoData.isMissing_nothing]
      exact fun hnull => h (NoData.isMissing_iff.mpr (.inl hnull))
    simp [unlessMissing, h, hnull]

theorem scalar_eq (read? : RawValue → Option ScalarValue) (v : RawValue) :
    (unlessMissing noData read? v).map OutputData.scalar =
      ((unlessMissing .nothing read? v).map OutputData.scalar).bind (erase noData v) := by
  have herase (s : ScalarValue) :
      erase noData v (.scalar s) = if noData.isMissing v then none else some (.scalar s) := by
    cases v <;> rfl
  rw [unlessMissing_eq]
  cases unlessMissing .nothing read? v with
  | none => simp
  | some s => by_cases h : noData.isMissing v = true <;> simp [herase, h]

theorem profileItem_eq (level : Observation) :
    profileItem noData d options level =
      if noData.isMissing level.value then { profileItem .nothing d options level with value := none }
      else profileItem .nothing d options level := by
  unfold profileItem
  rw [unlessMissing_eq]
  by_cases h : noData.isMissing level.value = true <;> simp [h]

theorem profileItems_eq (levels : List Observation) (unit : Option String) :
    ⟨unit, levels.map (profileItem noData d options)⟩ =
      eraseLevels noData levels ⟨unit, levels.map (profileItem .nothing d options)⟩ := by
  unfold eraseLevels
  congr 1
  apply List.ext_getElem?
  intro i
  rw [List.getElem?_mapIdx, List.getElem?_map, List.getElem?_map]
  cases levels[i]? with
  | none => rfl
  | some level => simp [profileItem_eq noData d options level]

/-- **A value is converted as without sentinels, and what is missing is taken out.** -/
theorem value?_eq (kind : ValueKind) (v : RawValue) :
    value? kind noData d options v = (value? kind .nothing d options v).bind (erase noData v) := by
  cases kind with
  | quantity => exact scalar_eq noData (quantity? d) v
  | count => exact scalar_eq noData count? v
  | text => exact scalar_eq noData text? v
  | profile =>
    cases v with
    | profile levels =>
      show some (OutputData.profile _) = some (OutputData.profile _)
      rw [profileItems_eq]
    | _ => rfl

theorem convert_eq_erased (kind : ValueKind) (o : Option Observation) :
    convert kind noData d options o =
      (convert kind .nothing d options o).map (erased noData o) := by
  cases o with
  | none => rfl
  | some o =>
    rw [convert_eq, convert_eq, value?_eq]
    cases frame d options o <;> rfl

end Values

/-! ### More sentinels -/

section More
variable {S T : List String} (h : S ⊆ T)
include h

theorem eraseLevels_eraseLevels (levels : List Observation) (p : Profile) :
    eraseLevels ⟨T⟩ levels (eraseLevels ⟨S⟩ levels p) = eraseLevels ⟨T⟩ levels p := by
  unfold eraseLevels
  dsimp only
  congr 1
  rw [List.mapIdx_mapIdx]
  apply List.mapIdx_eq_mapIdx_iff.mpr
  intro i hi
  cases levels[i]? with
  | none => simp
  | some level =>
    by_cases hS : NoData.isMissing ⟨S⟩ level.value = true
    · simp [hS, NoData.isMissing_mono h hS]
    · simp [hS]

/-- What the fewer sentinels erase, the more erase as well. -/
theorem erase_bind (v : RawValue) (out : OutputData) :
    (erase ⟨S⟩ v out).bind (erase ⟨T⟩ v) = erase ⟨T⟩ v out := by
  have hscalar (found : Option OutputData) :
      (if NoData.isMissing ⟨S⟩ v then none else found).bind
          (fun out => if NoData.isMissing ⟨T⟩ v then none else some out) =
        found.bind fun out => if NoData.isMissing ⟨T⟩ v then none else some out := by
    by_cases hS : NoData.isMissing ⟨S⟩ v = true
    · simp [hS, NoData.isMissing_mono h hS]
    · simp [hS]
  cases v with
  | profile levels =>
    cases out with
    | profile p => exact congrArg (some ∘ OutputData.profile) (eraseLevels_eraseLevels h levels p)
    | scalar s => exact hscalar (some (.scalar s))
  | _ => exact hscalar (some out)

/-- **More sentinels only erase more**: an observation is converted as with the fewer ones,
and then loses what is missing. -/
theorem convert_of_subset (kind : ValueKind) (d : Dataset) (options : Options)
    (o : Option Observation) :
    convert kind ⟨T⟩ d options o = (convert kind ⟨S⟩ d options o).map (erased ⟨T⟩ o) := by
  rw [convert_eq_erased ⟨T⟩, convert_eq_erased ⟨S⟩]
  cases convert kind .nothing d options o with
  | error e => rfl
  | ok output =>
    cases o with
    | none => rfl
    | some o =>
      show Except.ok _ = Except.ok _
      simp only [erased, Option.bind_assoc, erase_bind h]

end More

theorem erased_congr {S T : List String} (h : ∀ s, s ∈ S ↔ s ∈ T) :
    erased ⟨S⟩ = erased ⟨T⟩ := by
  have hlevels : eraseLevels ⟨S⟩ = eraseLevels ⟨T⟩ := by
    funext levels p
    simp only [eraseLevels, NoData.isMissing_congr h]
  have herase : erase ⟨S⟩ = erase ⟨T⟩ := by
    funext v out
    simp only [erase, NoData.isMissing_congr h, hlevels]
  funext o output
  simp only [erased, herase]

/-- **Sentinels only erase.** An observation is converted as it is without sentinels, or
fails as it does, and of what is converted only the values that are missing are taken out. A
value is missing under two lists of sentinels together if it is under one of them; so more
sentinels erase more and bring nothing back, and the same sentinels in another order, or
repeated, do the same. -/
theorem sentinels_erase (S : List String) :
    (∀ kind d options o,
      convert kind ⟨S⟩ d options o = (convert kind ⟨[]⟩ d options o).map (erased ⟨S⟩ o)) ∧
    (∀ T v, NoData.isMissing ⟨S ++ T⟩ v = (NoData.isMissing ⟨S⟩ v || NoData.isMissing ⟨T⟩ v)) ∧
    (∀ T, S ⊆ T → ∀ kind d options o,
      convert kind ⟨T⟩ d options o = (convert kind ⟨S⟩ d options o).map (erased ⟨T⟩ o)) ∧
    (∀ T, (∀ s, s ∈ S ↔ s ∈ T) →
      (∀ v, NoData.isMissing ⟨S⟩ v = NoData.isMissing ⟨T⟩ v) ∧
      ∀ kind d options o, convert kind ⟨S⟩ d options o = convert kind ⟨T⟩ d options o) := by
  refine ⟨fun kind d options o => convert_eq_erased ⟨S⟩ d options kind o,
    fun T v => NoData.isMissing_append S T v,
    fun T h kind d options o => convert_of_subset h kind d options o, fun T h => ⟨fun v => ?_, ?_⟩⟩
  · rw [NoData.isMissing_congr h]
  · intro kind d options o
    rw [convert_eq_erased ⟨S⟩, convert_eq_erased ⟨T⟩, erased_congr h]

/-! ### A profile with a level that was not measured -/

/-- A level of water with what was counted there. -/
def counted (depth : Float) (n : Int64) : Observation :=
  { Measurement.bare 2 1 (.count n) with verticalTo := some depth }

/-- A moment on an afternoon in summer. -/
def afternoon : Instant where
  date := ⟨2023, 6, 21, by decide, by decide, by decide⟩
  hour := ⟨14, by decide⟩
  minute := ⟨30, by decide⟩
  second := ⟨15, by decide⟩
  nanosecond := ⟨500000000, by decide⟩

/-- What was counted at two depths, the deeper of them not reached. -/
def sounding : Observation := .sampledAt 1 1 afternoon (.profile [counted 10 3, counted 20 (-9999)])

/-- The dataset of soundings. -/
def soundings : Dataset := Catalog.plainDataset 1 1 true

/-- The profile of the sounding, given what is told of the deeper level. -/
def soundingProfile (deeper : Option ScalarValue) : Profile :=
  ⟨none, [⟨none, some 10, some (.count 3)⟩, ⟨none, some 20, deeper⟩]⟩

/-- Sentinels that stand for the count of the deeper level only leave the other as it is. -/
theorem erased_sounding {S : List String} {output : OutputValue} {deeper : Option ScalarValue}
    (hshallow : NoData.isMissing ⟨S⟩ (.count 3) = false)
    (hdeep : NoData.isMissing ⟨S⟩ (.count (-9999)) = true)
    (hvalue : output.value = some (.profile (soundingProfile deeper))) :
    erased ⟨S⟩ (some sounding) output =
      { output with value := some (.profile (soundingProfile none)) } := by
  simp only [erased, hvalue, Option.bind_some]
  simp [sounding, Measurement.sampledAt, counted, Measurement.bare, erase, eraseLevels,
    soundingProfile, hshallow, hdeep]

/-- The sentinel erases the count of the deeper level and nothing else, also together with
another one that is given twice. -/
theorem sounding_erased : ∃ output,
    convert .profile ⟨[]⟩ soundings .standard (some sounding) = .ok output ∧
    output.value = some (.profile (soundingProfile (some (.count (-9999))))) ∧
    convert .profile ⟨["-9999"]⟩ soundings .standard (some sounding) =
      .ok { output with value := some (.profile (soundingProfile none)) } ∧
    convert .profile ⟨["-9999", "n/a"]⟩ soundings .standard (some sounding) =
      .ok { output with value := some (.profile (soundingProfile none)) } ∧
    convert .profile ⟨["n/a", "-9999", "n/a"]⟩ soundings .standard (some sounding) =
      .ok { output with value := some (.profile (soundingProfile none)) } := by
  have htime : sounding.samplingEnd = some afternoon := rfl
  obtain ⟨output, hplain, _, hvalue⟩ := convert_dated .profile ⟨[]⟩ soundings .standard htime
  obtain ⟨herase, _, hmore, _⟩ := sentinels_erase ["-9999"]
  obtain ⟨_, _, _, hsame⟩ := sentinels_erase ["-9999", "n/a"]
  have hone : convert .profile ⟨["-9999"]⟩ soundings .standard (some sounding) =
      .ok { output with value := some (.profile (soundingProfile none)) } := by
    rw [herase, hplain]
    exact congrArg Except.ok (erased_sounding (by decide) (by decide) hvalue)
  have htwo : convert .profile ⟨["-9999", "n/a"]⟩ soundings .standard (some sounding) =
      .ok { output with value := some (.profile (soundingProfile none)) } := by
    rw [hmore _ (by simp), hone]
    exact congrArg Except.ok (erased_sounding (by decide) (by decide) rfl)
  refine ⟨output, hplain, hvalue, hone, htwo, ?_⟩
  rw [← (hsame ["n/a", "-9999", "n/a"] (by simp)).2, htwo]

end Conversion
end Observatory
