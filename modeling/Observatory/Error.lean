import Observatory.Model.Dimension

/-! Errors of the access layer.

Each cause has its wording, the status a web interface answers with, and whether the
caller may go on without the thing that failed. -/
namespace Observatory

/-- Why a request failed. -/
inductive Error where
  | unknownType (key : String)
  | malformedIdentifier (dimension value : String)
  | notFound (what : String)
  | invalidParameter (name reason : String)
  | missingTimestamp (observation : Id)
  | storage (reason : String)
  | configuration (reason : String)
deriving DecidableEq

namespace Error

def message : Error → String
  | unknownType key => "No value converter registered for type '" ++ key ++ "'"
  | malformedIdentifier dimension value =>
    "Malformed " ++ dimension ++ " identifier: '" ++ value ++ "'"
  | notFound what => "Entity not found: " ++ what
  | invalidParameter name reason => "Invalid parameter value for '" ++ name ++ "': " ++ reason
  | missingTimestamp observation =>
    "Observation " ++ toString observation ++ " has no sampling time end"
  | storage reason => "Storage error: " ++ reason
  | configuration reason => "Configuration error: " ++ reason

/-- The status of a web answer. -/
def status : Error → Nat
  | invalidParameter _ _ => 400
  | malformedIdentifier _ _ => 400
  | notFound _ => 404
  | unknownType _ => 404
  | missingTimestamp _ => 500
  | storage _ => 500
  | configuration _ => 500

/-- Whether the caller may leave out what failed and go on. -/
def isRecoverable : Error → Bool
  | unknownType _ => true
  | malformedIdentifier _ _ => true
  | notFound _ => true
  | _ => false

def noDataset (id : Id) : Error := .notFound ("dataset " ++ toString id)

def noEntity (dimension : Dimension) (id : Id) : Error :=
  .notFound (dimension.name ++ " " ++ toString id)

end Error
end Observatory
