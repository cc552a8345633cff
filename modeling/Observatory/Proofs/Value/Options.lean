import Observatory.Proofs.Value.Sentinels

/-! What options do to values.

Options only add: where one request asks for everything that another asks for
(`Options.AsksLess`), its answers have all that the answers of the other have, and the same
fails (`options_add`). Each part of an answer waits for an option, or for a fact of the
dataset or the observation, and is then taken over as it is (`shown_of_shown`). -/
namespace Observatory

/-! ### More options, more answers -/

/-- All that the one options ask for is asked for by the others too. The locale, the links and
the naming of entities are free. -/
structure Options.AsksLess (less more : Options) : Prop where
  expanded : less.expanded = true → more.expanded = true
  showTimeIntervals : less.showTimeIntervals = true → more.showTimeIntervals = true
  showVerticalIntervals : less.showVerticalIntervals = true → more.showVerticalIntervals = true

/-- A level has all that the other has, and at most its lower end beside. -/
structure ProfileItem.Within (i j : ProfileItem) : Prop where
  verticalFrom : ∀ x ∈ i.verticalFrom, x ∈ j.verticalFrom
  vertical : j.vertical = i.vertical
  value : j.value = i.value

/-- Scalars are the same, profiles have the same unit and correspond level by level. -/
inductive OutputData.Within : OutputData → OutputData → Prop where
  | scalar (s : ScalarValue) : Within (.scalar s) (.scalar s)
  | profile {p q : Profile} (verticalUnit : q.verticalUnit = p.verticalUnit)
      (items : List.Forall₂ ProfileItem.Within p.items q.items) : Within (.profile p) (.profile q)

/-- An answer has all that the other has, with the same contents. -/
structure OutputValue.Within (v w : OutputValue) : Prop where
  timestart : ∀ t ∈ v.timestart, t ∈ w.timestart
  timestamp : w.timestamp = v.timestamp
  value : Option.Rel OutputData.Within v.value w.value
  validTime : ∀ i ∈ v.validTime, i ∈ w.validTime
  resultTime : ∀ t ∈ v.resultTime, t ∈ w.resultTime
  parameters : v.parameters ≠ [] → w.parameters = v.parameters
  geometry : ∀ g ∈ v.geometry, g ∈ w.geometry

namespace Conversion
variable {kind : ValueKind} {noData : NoData} {d : Dataset} {options less more : Options}
  {o : Observation}

/-! ### Parts that wait for an option -/

/-- What is shown is shown where no less is asked for. -/
theorem shown_of_shown {α : Type} {asked askedMore : Bool} (h : asked = true → askedMore = true)
    (part : Option α) :
    ∀ x ∈ (if asked then part else none), x ∈ (if askedMore then part else none) := by
  intro x hx
  cases asked with
  | false => exact absurd hx (by simp)
  | true =>
    rw [h rfl]
    exact hx

/-! ### Values -/

theorem profileItem_within (h : less.AsksLess more) (noData : NoData) (d : Dataset)
    (level : Observation) :
    (profileItem noData d less level).Within (profileItem noData d more level) where
  verticalFrom := shown_of_shown h.showVerticalIntervals _
  vertical := rfl
  value := rfl

/-- A scalar does not depend on the options, and a profile only in the lower ends. -/
theorem value?_within (h : less.AsksLess more) (kind : ValueKind) (noData : NoData) (d : Dataset)
    (v : RawValue) :
    Option.Rel OutputData.Within (value? kind noData d less v) (value? kind noData d more v) := by
  have hscalar (s : Option ScalarValue) :
      Option.Rel OutputData.Within (s.map .scalar) (s.map .scalar) := by
    cases s with
    | none => exact .none
    | some s => exact .some (.scalar s)
  cases kind with
  | quantity => exact hscalar _
  | count => exact hscalar _
  | text => exact hscalar _
  | profile =>
    cases v with
    | profile levels =>
      refine .some (.profile rfl ?_)
      rw [List.forall₂_map_left_iff, List.forall₂_map_right_iff]
      exact List.forall₂_same.mpr fun level _ => profileItem_within h noData d level
    | _ => exact .none

/-! ### Answers -/

/-- An observation with a time is converted under either options, to more under the more. -/
theorem convert_within (h : less.AsksLess more) (kind : ValueKind) (noData : NoData) (d : Dataset)
    {stop : Instant} (htime : o.samplingEnd = some stop) :
    ∃ fewer full, convert kind noData d less (some o) = .ok fewer ∧
      convert kind noData d more (some o) = .ok full ∧ fewer.Within full := by
  rw [convert_eq, convert_eq, frame_dated htime, frame_dated htime]
  refine ⟨_, _, rfl, rfl, ?_⟩
  constructor
  case timestart => exact shown_of_shown h.showTimeIntervals _
  case timestamp => rfl
  case value => exact value?_within h kind noData d o.value
  case validTime => exact shown_of_shown h.expanded _
  case resultTime => exact shown_of_shown h.expanded _
  case parameters =>
    intro hany
    -- There are none unless everything is asked for.
    cases hexpanded : less.expanded with
    | false => simp [hexpanded] at hany
    | true => simp [h.expanded hexpanded]
  case geometry =>
    apply shown_of_shown
    simp only [Bool.or_eq_true]
    exact Or.imp_left h.expanded

/-- Only the lack of an observation has an empty answer. -/
theorem isEmpty_of_convert {o : Option Observation} {output : OutputValue}
    (h : convert kind noData d options o = .ok output) : output.isEmpty = true ↔ o = none := by
  cases o with
  | none =>
    obtain rfl := Except.ok.inj h
    exact iff_of_true rfl rfl
  | some o =>
    have htime := (timestamp_of_convert h).1
    simp [OutputValue.isEmpty, Option.isSome_iff_ne_none.mp htime]

/-- **Options only add.** Where more is asked for, the same observations fail with the same
error, the time they lack; and what is told where less is asked for is told again, a profile
level by level. An answer is empty if there is no observation to answer for, and only then. -/
theorem options_add (h : less.AsksLess more) (kind : ValueKind) (noData : NoData) (d : Dataset)
    (o : Option Observation) :
    ((∃ undated, o = some undated ∧ undated.samplingEnd = none ∧
        convert kind noData d less o = .error (.missingTimestamp undated.id) ∧
        convert kind noData d more o = .error (.missingTimestamp undated.id)) ∨
      ∃ fewer full, convert kind noData d less o = .ok fewer ∧
        convert kind noData d more o = .ok full ∧ fewer.Within full) ∧
    ∀ options output, convert kind noData d options o = .ok output →
      (output.isEmpty = true ↔ o = none) := by
  refine ⟨?_, fun options output => isEmpty_of_convert⟩
  cases o with
  | none => exact .inr ⟨.empty, .empty, rfl, rfl, by constructor <;> simp [OutputValue.empty]⟩
  | some o =>
    cases htime : o.samplingEnd with
    | none => exact .inl ⟨o, rfl, htime, convert_undated htime, convert_undated htime⟩
    | some stop => exact .inr (convert_within h kind noData d htime)

/-! ### A profile of layers -/

/-- All that can be asked for beside the value. -/
def askingAll : Options :=
  { Options.standard with showTimeIntervals := true, showVerticalIntervals := true, expanded := true }

/-- What was counted in one layer of water, with a remark. -/
def layered : Observation :=
  { Measurement.sampledAt 1 1 afternoon
      (.profile [{ counted 10 3 with verticalFrom := some 5 }]) with
    parameters := [⟨"net", .text "fine", none⟩] }

/-- Where all is asked for, the start, the remark and the other end of the layer come beside
what is told anyway. -/
theorem layered_asked : ∃ fewer full,
    convert .profile .nothing soundings .standard (some layered) = .ok fewer ∧
    convert .profile .nothing soundings askingAll (some layered) = .ok full ∧
    fewer.Within full ∧ fewer.isEmpty = false ∧
    fewer.timestart = none ∧ full.timestart = some afternoon ∧
    fewer.parameters = [] ∧ full.parameters = layered.parameters ∧
    fewer.value = some (.profile ⟨none, [⟨none, some 10, some (.count 3)⟩]⟩) ∧
    full.value = some (.profile ⟨none, [⟨some 5, some 10, some (.count 3)⟩]⟩) := by
  have hasks : Options.standard.AsksLess askingAll :=
    ⟨fun _ => rfl, fun _ => rfl, fun _ => rfl⟩
  obtain ⟨hoptions, _⟩ := options_add hasks .profile .nothing soundings (some layered)
  rcases hoptions with ⟨undated, hsome, hundated, _⟩ | ⟨fewer, full, hfewer, hfull, hwithin⟩
  · obtain rfl := Option.some.inj hsome
    exact absurd hundated (by decide)
  · refine ⟨fewer, full, hfewer, hfull, hwithin, ?_⟩
    obtain rfl := Except.ok.inj hfewer
    obtain rfl := Except.ok.inj hfull
    exact ⟨rfl, rfl, rfl, rfl, rfl, rfl, rfl⟩

end Conversion
end Observatory
