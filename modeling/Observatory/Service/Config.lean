import Observatory.Document.Yaml.Reader
import Observatory.Error
import Observatory.Model.Options
import Observatory.Value.NoData

/-! Configuration.

Settings come from a document, each with a default, and may be overlaid by environment
variables. A variable that cannot be read leaves its setting as it is. -/
namespace Observatory
open Document

/-- The settings of the service. -/
structure Config where
  noDataValues : List String
  defaultLocale : String
  hrefBase : Option String
  /-- How many levels of ancestors are followed. -/
  maxHierarchyDepth : UInt64
  /-- Whether filters name domain identifiers unless a request says otherwise. -/
  matchDomainIds : Bool
deriving DecidableEq

namespace Config

/-- The settings where nothing is set. -/
def standard : Config where
  noDataValues := []
  defaultLocale := "en"
  hrefBase := none
  maxHierarchyDepth := 32
  matchDomainIds := false

instance : Inhabited Config := ⟨standard⟩

def noData (c : Config) : NoData := ⟨c.noDataValues⟩

/-- The options of requests that name none. -/
def options (c : Config) : Options :=
  { Options.standard with
    useDomainIdentifiers := c.matchDomainIds
    locale := c.defaultLocale
    hrefBase := c.hrefBase }

/-- Refuses settings that no service can run with. -/
def validate (c : Config) : Except Error Unit :=
  if c.maxHierarchyDepth = 0 then .error (.configuration "max_hierarchy_depth must be at least 1")
  else if Text.trim c.defaultLocale = "" then
    .error (.configuration "default_locale must not be empty")
  else .ok ()

/-! ### Environment -/

/-- Reads a truth value of the environment. -/
def flag? (s : String) : Option Bool :=
  if s = "true" then some true else if s = "false" then some false else none

inductive Variable where
  | noDataValues
  | defaultLocale
  | hrefBase
  | maxHierarchyDepth
  | matchDomainIds

def Variable.name : Variable → String
  | noDataValues => "OBS_NO_DATA_VALUES"
  | defaultLocale => "OBS_DEFAULT_LOCALE"
  | hrefBase => "OBS_HREF_BASE"
  | maxHierarchyDepth => "OBS_MAX_HIERARCHY_DEPTH"
  | matchDomainIds => "OBS_MATCH_DOMAIN_IDS"

def variableNames : List String :=
  [Variable.noDataValues, .defaultLocale, .hrefBase, .maxHierarchyDepth, .matchDomainIds].map
    (·.name)

/-- The settings overlaid by environment variables. An empty start of links takes it
away. -/
def overlay (c : Config) (lookup : String → Option String) : Config :=
  let value? (v : Variable) := lookup v.name
  { noDataValues := ((value? .noDataValues).map Text.items).getD c.noDataValues
    defaultLocale := (value? .defaultLocale).getD c.defaultLocale
    hrefBase :=
      match value? .hrefBase with
      | some base => if base = "" then none else some base
      | none => c.hrefBase
    maxHierarchyDepth :=
      ((value? .maxHierarchyDepth).bind Text.uint64?).getD c.maxHierarchyDepth
    matchDomainIds := ((value? .matchDomainIds).bind flag?).getD c.matchDomainIds }

/-! ### Documents -/

/-- The text of a number among the sentinels. -/
def numberText (x : Float) : String :=
  if x.isNaN then ".nan"
  else if x.isInf then (if x < 0 then "-.inf" else ".inf")
  else Number.Layout.sentinel.text x

/-- The sentinel that an item of a list stands for. Only texts and numbers do. -/
def sentinelOf? : Document → Option String
  | .text s => some s
  | .integer n => some (toString n)
  | .real x => some (numberText x)
  | _ => none

/-- Reads sentinels: a list, or a text with commas. -/
def sentinelsOf? (d : Document) : Option (List String) :=
  match d.resolve? with
  | some (.text s) => some (Text.items s)
  | some (.list items) => some (items.filterMap sentinelOf?)
  | _ => none

def toDocument (c : Config) : Document :=
  .record (
    field "no_data_values" (ofList .text c.noDataValues) ++
    field "default_locale" (.text c.defaultLocale) ++
    field "href_base" (ofOption .text c.hrefBase) ++
    field "max_hierarchy_depth" (.integer c.maxHierarchyDepth.toNat) ++
    field "match_domain_ids" (.boolean c.matchDomainIds))

def ofDocument? (d : Document) : Option Config := do
  let fields ← d.structure?
    ["no_data_values", "default_locale", "href_base", "max_hierarchy_depth", "match_domain_ids"] 0
  let noDataValues ← fields.orElse "no_data_values" [] sentinelsOf?
  let defaultLocale ← fields.orElse "default_locale" "en" text?
  let hrefBase ← fields.optional "href_base" text?
  let maxHierarchyDepth ← fields.orElse "max_hierarchy_depth" 32 uint64?
  let matchDomainIds ← fields.orElse "match_domain_ids" false boolean?
  return { noDataValues, defaultLocale, hrefBase, maxHierarchyDepth, matchDomainIds }

def ofYaml? (text : String) : Option Config := (Yaml.read? text).bind ofDocument?

end Config
end Observatory
