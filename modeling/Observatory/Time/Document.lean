import Observatory.Time.Interval
import Observatory.Document.Basic

/-! Instants and intervals in documents.

A stored instant is read leniently and always written in universal time. -/
namespace Observatory
open Document

def Instant.toDocument (t : Instant) : Document := .text t.text

def Instant.ofDocument? (d : Document) : Option Instant := d.text?.bind Instant.readStored?

def TimeInterval.toDocument (i : TimeInterval) : Document :=
  .record (fieldIfSome "start" Instant.toDocument i.start ++ fieldIfSome "end" Instant.toDocument i.stop)

/-- Reads an interval. Its bounds may be in any order. -/
def TimeInterval.ofDocument? (d : Document) : Option TimeInterval := do
  let fields ← d.structure? ["start", "end"] 2
  let start ← fields.optional "start" Instant.ofDocument?
  let stop ← fields.optional "end" Instant.ofDocument?
  return ⟨start, stop⟩

end Observatory
