import Observatory.Model.Options
import Observatory.Value.Output
import Observatory.Value.Registry

/-! Conversion of observations.

Every kind of value goes the same way: the time of the observation, which has to be
there, then what the options ask for, then the value, unless it is missing or of
another kind. The shape of an observation is given where it can differ from that of
the feature, or where everything is asked for. -/
namespace Observatory.Conversion

/-- The time and the surroundings of an observation, no value yet. -/
def frame (dataset : Dataset) (options : Options) (o : Observation) : Except Error OutputValue :=
  match o.samplingEnd with
  | none => .error (.missingTimestamp o.id)
  | some stop =>
    let distinct := Dataset.isDistinctResultTime o.resultTime o.samplingEnd
    .ok {
      timestart := if options.showTimeIntervals then o.samplingStart else none
      timestamp := some stop
      value := none
      validTime := if options.expanded then TimeInterval.ofBounds? o.validStart o.validEnd else none
      resultTime := if options.expanded && distinct then o.resultTime else none
      parameters := if options.expanded then o.parameters else []
      geometry := if options.expanded || dataset.mobile then o.geometry else none }

/-- A value as a quantity. Counts are taken as they are. -/
def quantity? (dataset : Dataset) : RawValue → Option ScalarValue
  | .quantity x => (Number.roundFloat? x dataset.numberOfDecimals).map .quantity
  | .count n => some (.quantity (Number.Decimal.ofInt64 n))
  | _ => none

def count? : RawValue → Option ScalarValue
  | .count n => some (.count n)
  | _ => none

def text? : RawValue → Option ScalarValue
  | .text s => some (.text s)
  | _ => none

/-- The value of a level, by its own kind. -/
def level? (dataset : Dataset) : RawValue → Option ScalarValue
  | .quantity x => (Number.roundFloat? x dataset.numberOfDecimals).map .quantity
  | .count n => some (.count n)
  | .text s => some (.text s)
  | _ => none

/-- The value unless it is missing. -/
def unlessMissing {α : Type} (noData : NoData) (read? : RawValue → Option α) (v : RawValue) :
    Option α := if noData.isMissing v then none else read? v

/-! ### Profiles -/

/-- The parameter of a level that a setting names. -/
def namedParameter? (name : Option String) (level : Observation) : Option Parameter :=
  name.bind level.parameter?

/-- The parameter that carries the coordinate of a level. -/
def coordinate? (settings : Option VerticalSettings) (level : Observation) : Option Parameter :=
  namedParameter? (settings.bind fun s => s.toName <|> s.parameterName) level

def numeric? (p : Option Parameter) : Option Float := p.bind (·.value.number?)

/-- The level an observation stands for. -/
def profileItem (noData : NoData) (dataset : Dataset) (options : Options) (level : Observation) :
    ProfileItem where
  verticalFrom :=
    if options.showVerticalIntervals then
      level.verticalFrom <|>
        numeric? (namedParameter? (dataset.vertical.bind (·.fromName)) level)
    else none
  vertical := level.verticalTo <|> numeric? (coordinate? dataset.vertical level)
  value := unlessMissing noData (level? dataset) level.value

/-- The unit of the vertical axis: the configured one, else that of the first
coordinate parameter that has one. -/
def verticalUnit? (settings : Option VerticalSettings) (levels : List Observation) : Option String :=
  settings.bind (·.unit) <|>
    levels.findSome? fun level => (coordinate? settings level).bind (·.unit)

def profile? (noData : NoData) (dataset : Dataset) (options : Options) : RawValue → Option Profile
  | .profile levels =>
    some ⟨verticalUnit? dataset.vertical levels, levels.map (profileItem noData dataset options)⟩
  | _ => none

/-! ### All kinds -/

/-- The value of an observation, converted to a kind. -/
def value? (kind : ValueKind) (noData : NoData) (dataset : Dataset) (options : Options)
    (v : RawValue) : Option OutputData :=
  match kind with
  | .quantity => (unlessMissing noData (quantity? dataset) v).map .scalar
  | .count => (unlessMissing noData count? v).map .scalar
  | .text => (unlessMissing noData text? v).map .scalar
  | .profile => (profile? noData dataset options v).map .profile

/-- Converts an observation, or the lack of one. -/
def convert (kind : ValueKind) (noData : NoData) (dataset : Dataset) (options : Options) :
    Option Observation → Except Error OutputValue
  | none => .ok .empty
  | some o => do
    let output ← frame dataset options o
    return { output with value := value? kind noData dataset options o.value }

end Observatory.Conversion
