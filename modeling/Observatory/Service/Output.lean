import Observatory.Model.Entity
import Observatory.Model.Options
import Observatory.Value.Output

/-! Answers of the service.

Entities are given in short: id, identifier, label and a link. Sets of them are in the
order of those texts. -/
namespace Observatory
open Document

/-- An entity in short. -/
structure CondensedEntity where
  id : String
  domainId : String
  label : String
  href : Option String
deriving DecidableEq

namespace CondensedEntity

/-- The texts by which short entities are ordered; one without a link comes first. -/
def key (c : CondensedEntity) : List String := c.id :: c.domainId :: c.label :: c.href.toList

instance : LT CondensedEntity := ⟨fun a b => a.key < b.key⟩

instance : DecidableLT CondensedEntity := fun a b => inferInstanceAs (Decidable (a.key < b.key))

instance : Trans (fun a b : CondensedEntity => a < b) (fun a b : CondensedEntity => a < b)
    (fun a b : CondensedEntity => a < b) :=
  ⟨fun {a b c} (h₁ : a.key < b.key) (h₂ : b.key < c.key) => (List.lt_trans h₁ h₂ : a.key < c.key)⟩

/-- An entity in short, its label in the locale of the request. -/
def of (e : Entity) (dimension : Dimension) (options : Options) : CondensedEntity where
  id := toString e.id
  domainId := e.identifier
  label := e.label options.locale
  href := options.href? dimension.collection (toString e.id)

def toDocument (c : CondensedEntity) : Document :=
  .record (
    field "id" (.text c.id) ++
    field "domainId" (.text c.domainId) ++
    field "label" (.text c.label) ++
    fieldIfSome "href" .text c.href)

end CondensedEntity

/-- A dataset in short, with its kinds. -/
structure DatasetOutput where
  id : String
  domainId : String
  label : String
  href : Option String
  datasetType : String
  observationType : String
  valueType : String
  mobile : Bool
  uom : Option String
deriving DecidableEq

def DatasetOutput.toDocument (o : DatasetOutput) : Document :=
  .record (
    field "id" (.text o.id) ++
    field "domainId" (.text o.domainId) ++
    field "label" (.text o.label) ++
    fieldIfSome "href" .text o.href ++
    field "datasetType" (.text o.datasetType) ++
    field "observationType" (.text o.observationType) ++
    field "valueType" (.text o.valueType) ++
    field "mobile" (.boolean o.mobile) ++
    fieldIfSome "uom" .text o.uom)

structure DataOutput where
  dataset : Id
  valueType : String
  values : List OutputValue

def DataOutput.toDocument (o : DataOutput) : Document :=
  .record (
    field "dataset" (.integer o.dataset.toInt) ++
    field "valueType" (.text o.valueType) ++
    field "values" (ofList OutputValue.toDocument o.values))

/-- The aggregates of a dataset, those that were computed. -/
structure Aggregation where
  count : Option Nat
  min : Option Number.Decimal
  max : Option Number.Decimal
  avg : Option Number.Decimal
deriving DecidableEq

namespace Aggregation

def none : Aggregation := ⟨.none, .none, .none, .none⟩

def isEmpty (a : Aggregation) : Bool :=
  a.count.isNone && a.min.isNone && a.max.isNone && a.avg.isNone

def toDocument (a : Aggregation) : Document :=
  .record (
    fieldIfSome "count" (fun n => .integer n) a.count ++
    fieldIfSome "min" (fun x => .text x.text) a.min ++
    fieldIfSome "max" (fun x => .text x.text) a.max ++
    fieldIfSome "avg" (fun x => .text x.text) a.avg)

end Aggregation

/-- What is told of a dataset beside its data. -/
structure DatasetExtras where
  resultTimes : Option (SortedSet Instant)
  aggregation : Option Aggregation

def DatasetExtras.toDocument (x : DatasetExtras) : Document :=
  .record (
    fieldIfSome "resultTimes" (fun s => ofList Instant.toDocument s.toList) x.resultTimes ++
    fieldIfSome "aggregation" Aggregation.toDocument x.aggregation)

/-- What is told of a platform: the parents of the procedures in use on it, if any
procedure is. -/
structure PlatformExtras where
  procedures : Option (SortedSet CondensedEntity)

def PlatformExtras.toDocument (x : PlatformExtras) : Document :=
  .record (fieldIfSome "procedures" (fun s => ofList CondensedEntity.toDocument s.toList) x.procedures)

end Observatory
