import Observatory.Proofs.Catalog.Records
import Observatory.Proofs.Value.Conversion
import Observatory.Proofs.Value.Parameters

/-! Profiles level by level.

What is told of a level is told by that level and the settings of its dataset (`ItemOf`):
its coordinates stand in columns of their own or in parameters that the settings name, as
numbers or as texts with numbers in them. The unit of the axis is configured, or comes from
the first level that has one to give (`UnitOf`). A profile can be read one level after the
other, with the unit known so far (`readLevel`); nothing else is carried from a level to the
next, so profiles read one behind the other make one profile (`profile_by_levels`). -/
namespace Observatory.Conversion

/-! ### Named parameters -/

/-- The first parameter of a level with the name that is set. -/
def FirstNamed (name : Option String) (level : Observation) (p : Parameter) : Prop :=
  ∃ n, name = some n ∧ Records.IsFirst (·.name) n level.parameters p

/-- The name of the parameter with the coordinate: the one set for upper ends, else the common
one. -/
def coordinateName? (settings : Option VerticalSettings) : Option String :=
  match settings.bind (·.toName) with
  | some name => some name
  | none => settings.bind (·.parameterName)

/-- The number that a level has for a coordinate: the one in the column, else that of the first
parameter with the name. -/
def Coordinate (column : Option Float) (name : Option String) (level : Observation) (x : Float) :
    Prop :=
  column = some x ∨ column = none ∧ ∃ p, FirstNamed name level p ∧ NumberOf p.value x

variable {name : Option String} {level : Observation} {settings : Option VerticalSettings}

theorem namedParameter?_eq_some_iff {p : Parameter} :
    namedParameter? name level = some p ↔ FirstNamed name level p := by
  unfold namedParameter? FirstNamed Measurement.parameter?
  rw [Option.bind_eq_some_iff]
  refine exists_congr fun n => and_congr_right fun _ => ?_
  exact Records.find?_eq_some_iff

theorem coordinate?_eq (settings : Option VerticalSettings) (level : Observation) :
    coordinate? settings level = namedParameter? (coordinateName? settings) level := by
  unfold coordinate? coordinateName?
  cases settings with
  | none => rfl
  | some s => cases hto : s.toName <;> simp [hto]

/-- A column, or a named parameter where the column is empty, gives the coordinate. -/
theorem column_eq_some_iff {column : Option Float} {x : Float} :
    (column <|> numeric? (namedParameter? name level)) = some x ↔
      Coordinate column name level x := by
  unfold Coordinate numeric?
  cases column with
  | some y => simp
  | none =>
    simp [Option.bind_eq_some_iff, namedParameter?_eq_some_iff, ParameterValue.number?_eq_some_iff]

/-! ### Items -/

/-- The value that is told of a level: a quantity is rounded, a count and a text are told as they
are. -/
inductive LevelValue (d : Dataset) : RawValue → ScalarValue → Prop
  | quantity {x : Float} {y : Number.Decimal}
    (rounded : Number.roundFloat? x d.numberOfDecimals = some y) :
    LevelValue d (.quantity x) (.quantity y)
  | count (n : Int64) : LevelValue d (.count n) (.count n)
  | text (s : String) : LevelValue d (.text s) (.text s)

theorem level?_eq_some_iff {d : Dataset} {raw : RawValue} {v : ScalarValue} :
    level? d raw = some v ↔ LevelValue d raw v := by
  constructor
  · intro h
    cases raw with
    | quantity x =>
      obtain ⟨y, hy, rfl⟩ := Option.map_eq_some_iff.mp h
      exact .quantity hy
    | count n => exact Option.some.inj h ▸ .count n
    | text s => exact Option.some.inj h ▸ .text s
    | null => exact nomatch h
    | profile levels => exact nomatch h
  · intro h
    cases h with
    | quantity rounded => exact Option.map_eq_some_iff.mpr ⟨_, rounded, rfl⟩
    | count => rfl
    | text => rfl

/-- What is told of a level. -/
structure ItemOf (noData : NoData) (d : Dataset) (options : Options) (level : Observation)
    (item : ProfileItem) : Prop where
  vertical : ∀ x, item.vertical = some x ↔
    Coordinate level.verticalTo (coordinateName? d.vertical) level x
  verticalFrom : ∀ x, item.verticalFrom = some x ↔ options.showVerticalIntervals = true ∧
    Coordinate level.verticalFrom (d.vertical.bind (·.fromName)) level x
  value : ∀ v, item.value = some v ↔
    noData.isMissing level.value = false ∧ LevelValue d level.value v

variable (noData : NoData) (d : Dataset) (options : Options)

theorem itemOf_profileItem (level : Observation) :
    ItemOf noData d options level (profileItem noData d options level) where
  vertical x := by
    show (level.verticalTo <|> numeric? (coordinate? d.vertical level)) = some x ↔ _
    rw [coordinate?_eq, column_eq_some_iff]
  verticalFrom x := by
    show (if options.showVerticalIntervals = true then _ else none) = some x ↔ _
    by_cases h : options.showVerticalIntervals = true
    · rw [if_pos h, and_iff_right h, column_eq_some_iff]
    · simp [h]
  value v := by
    show unlessMissing noData (level? d) level.value = some v ↔ _
    rw [← level?_eq_some_iff]
    unfold unlessMissing
    by_cases h : noData.isMissing level.value = true
    · simp [h]
    · simp [h]

/-- There is one thing to tell of a level. -/
theorem ItemOf.unique {noData : NoData} {d : Dataset} {options : Options} {level : Observation}
    {first second : ProfileItem} (h : ItemOf noData d options level first)
    (h' : ItemOf noData d options level second) : first = second := by
  obtain ⟨verticalFrom, vertical, value⟩ := first
  obtain ⟨verticalFrom', vertical', value'⟩ := second
  obtain rfl : vertical = vertical' :=
    Option.ext fun x => (h.vertical x).trans (h'.vertical x).symm
  obtain rfl : verticalFrom = verticalFrom' :=
    Option.ext fun x => (h.verticalFrom x).trans (h'.verticalFrom x).symm
  obtain rfl : value = value' := Option.ext fun v => (h.value v).trans (h'.value v).symm
  rfl

/-! ### The unit -/

/-- The parameter with the coordinate of a level has a unit. -/
def CarriesUnit (settings : Option VerticalSettings) (level : Observation) (unit : String) : Prop :=
  ∃ p, FirstNamed (coordinateName? settings) level p ∧ p.unit = some unit

/-- The unit of the vertical axis: the configured one, else that of the first level that carries
one. -/
def UnitOf (settings : Option VerticalSettings) (levels : List Observation) (unit : String) : Prop :=
  settings.bind (·.unit) = some unit ∨ settings.bind (·.unit) = none ∧
    ∃ before level after, levels = before ++ level :: after ∧ CarriesUnit settings level unit ∧
      ∀ earlier ∈ before, ∀ other, ¬ CarriesUnit settings earlier other

/-- The unit that a level has to give. -/
def unitOf? (settings : Option VerticalSettings) (level : Observation) : Option String :=
  (coordinate? settings level).bind (·.unit)

theorem unitOf?_eq_some_iff {unit : String} :
    unitOf? settings level = some unit ↔ CarriesUnit settings level unit := by
  unfold unitOf? CarriesUnit
  rw [coordinate?_eq, Option.bind_eq_some_iff]
  simp only [namedParameter?_eq_some_iff]

theorem verticalUnit?_eq (settings : Option VerticalSettings) (levels : List Observation) :
    verticalUnit? settings levels =
      (settings.bind (·.unit) <|> levels.findSome? (unitOf? settings)) := rfl

theorem verticalUnit?_eq_some_iff {levels : List Observation} {unit : String} :
    verticalUnit? settings levels = some unit ↔ UnitOf settings levels unit := by
  have hnone (level : Observation) :
      unitOf? settings level = none ↔ ∀ other, ¬ CarriesUnit settings level other := by
    simp only [Option.eq_none_iff_forall_ne_some, ne_eq, unitOf?_eq_some_iff]
  rw [verticalUnit?_eq]
  unfold UnitOf
  cases settings.bind (·.unit) with
  | some configured => simp
  | none => simp [List.findSome?_eq_some_iff, unitOf?_eq_some_iff, hnone]

/-! ### One level after the other -/

/-- Reads one more level: its item comes behind the others, and its unit is taken if none is
known yet. -/
def readLevel (p : Profile) (level : Observation) : Profile where
  verticalUnit := p.verticalUnit <|> unitOf? d.vertical level
  items := p.items ++ [profileItem noData d options level]

/-- The levels that are read leave the items before them as they are, and the unit if it is
known. -/
theorem foldl_readLevel (levels : List Observation) (p : Profile) :
    levels.foldl (readLevel noData d options) p =
      ⟨p.verticalUnit <|> levels.findSome? (unitOf? d.vertical),
        p.items ++ levels.map (profileItem noData d options)⟩ := by
  induction levels generalizing p with
  | nil => simp
  | cons level rest ih =>
    rw [List.foldl_cons, ih, readLevel]
    cases p.verticalUnit <;> cases hunit : unitOf? d.vertical level <;> simp [hunit]

/-- The profile of levels. -/
def profileOf (levels : List Observation) : Profile :=
  ⟨verticalUnit? d.vertical levels, levels.map (profileItem noData d options)⟩

theorem value?_profile (levels : List Observation) :
    value? .profile noData d options (.profile levels) =
      some (.profile (profileOf noData d options levels)) := rfl

/-- **A profile is read level by level**, from the configured unit on. -/
theorem profileOf_eq_foldl (levels : List Observation) :
    profileOf noData d options levels =
      levels.foldl (readLevel noData d options) ⟨d.vertical.bind (·.unit), []⟩ := by
  rw [foldl_readLevel, List.nil_append]
  rfl

/-- Levels behind others add their items, and their unit where the others have none. -/
theorem profileOf_append (levels more : List Observation) :
    profileOf noData d options (levels ++ more) =
      ⟨verticalUnit? d.vertical levels <|> verticalUnit? d.vertical more,
        levels.map (profileItem noData d options) ++ more.map (profileItem noData d options)⟩ := by
  rw [profileOf_eq_foldl, List.foldl_append, ← profileOf_eq_foldl, foldl_readLevel, profileOf]
  -- Where a unit is configured the levels before have it already.
  cases hunit : d.vertical.bind (·.unit) <;> simp [verticalUnit?_eq, hunit]

/-- **A profile is told level by level.** There is one item for each level, in their order; it
says what there is to say of that level, whatever levels stand beside it. The unit is the
configured one, else the first that a level carries. So levels put one behind the other give
the items of both and the unit of the first, or of the second where the first has none. A text
has a number to give exactly if it is the text of a double, blanks around it aside. -/
theorem profile_by_levels :
    ∃ (item : Observation → ProfileItem) (unit : List Observation → Option String),
      (∀ level x, ItemOf noData d options level x ↔ x = item level) ∧
      (∀ s, (∃ x, NumberOf (.text s) x) ↔
        ∃ inner, Text.Padded inner s.toList ∧ Number.IsDouble inner) ∧
      (∀ levels u, unit levels = some u ↔ UnitOf d.vertical levels u) ∧
      (∀ levels, value? .profile noData d options (.profile levels) =
        some (.profile ⟨unit levels, levels.map item⟩)) ∧
      (∀ levels more, value? .profile noData d options (.profile (levels ++ more)) =
        some (.profile ⟨unit levels <|> unit more, levels.map item ++ more.map item⟩)) ∧
      ∀ (o : Observation) (stop : Instant) (levels : List Observation),
        (convert .profile noData d options
          (some { o with samplingEnd := some stop, value := .profile levels })).map (·.value) =
            .ok (some (.profile ⟨unit levels, levels.map item⟩)) := by
  refine ⟨profileItem noData d options, verticalUnit? d.vertical, fun level x => ?_,
    fun s => ParameterValue.exists_numberOf_text_iff, fun levels u => verticalUnit?_eq_some_iff,
    value?_profile noData d options, fun levels more => ?_, fun o stop levels => ?_⟩
  · constructor
    · intro h
      exact h.unique (itemOf_profileItem noData d options level)
    · intro h
      exact h ▸ itemOf_profileItem noData d options level
  · rw [value?_profile, profileOf_append]
  · obtain ⟨output, houtput, _, hvalue⟩ := convert_dated .profile noData d options
      (o := { o with samplingEnd := some stop, value := .profile levels }) rfl
    rw [houtput]
    exact congrArg Except.ok (hvalue.trans (value?_profile noData d options levels))

end Observatory.Conversion
