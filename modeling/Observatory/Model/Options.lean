import Observatory.Document.Basic

/-! Options of a request: which parts of an answer are wanted, in which locale, and
whether filters name entities by id or by identifier. -/
namespace Observatory
open Document

/-- What a request asks for beside its filters. -/
structure Options where
  /-- Give the start of sampling beside its end. -/
  showTimeIntervals : Bool
  /-- Give the lower end of the levels of a profile. -/
  showVerticalIntervals : Bool
  /-- Give valid time, result time, parameters and shape. -/
  expanded : Bool
  /-- Filters list domain identifiers, not ids. -/
  useDomainIdentifiers : Bool
  locale : String
  /-- Where links to entities start; without it there are none. -/
  hrefBase : Option String
deriving DecidableEq

namespace Options

/-- The options of a request that names none. -/
def standard : Options where
  showTimeIntervals := false
  showVerticalIntervals := false
  expanded := false
  useDomainIdentifiers := false
  locale := "en"
  hrefBase := none

instance : Inhabited Options := ⟨standard⟩

/-- The text without the slashes at its end. -/
def withoutSlashes (s : String) : String :=
  String.ofList (s.toList.reverse.dropWhile (· == '/')).reverse

def href? (o : Options) (collection id : String) : Option String :=
  o.hrefBase.map fun base => withoutSlashes base ++ "/" ++ collection ++ "/" ++ id

def toDocument (o : Options) : Document :=
  .record (
    field "showTimeIntervals" (.boolean o.showTimeIntervals) ++
    field "showVerticalIntervals" (.boolean o.showVerticalIntervals) ++
    field "expanded" (.boolean o.expanded) ++
    field "useDomainIdentifiers" (.boolean o.useDomainIdentifiers) ++
    field "locale" (.text o.locale) ++
    fieldIfSome "hrefBase" .text o.hrefBase)

def ofDocument? (d : Document) : Option Options := do
  let fields ← d.structure?
    ["showTimeIntervals", "showVerticalIntervals", "expanded", "useDomainIdentifiers", "locale",
      "hrefBase"] 0
  let showTimeIntervals ← fields.orElse "showTimeIntervals" false boolean?
  let showVerticalIntervals ← fields.orElse "showVerticalIntervals" false boolean?
  let expanded ← fields.orElse "expanded" false boolean?
  let useDomainIdentifiers ← fields.orElse "useDomainIdentifiers" false boolean?
  let locale ← fields.orElse "locale" "en" text?
  let hrefBase ← fields.optional "hrefBase" text?
  return { showTimeIntervals, showVerticalIntervals, expanded, useDomainIdentifiers, locale, hrefBase }

end Options
end Observatory
