import Observatory.Catalog.Document
import Observatory.Collection.SortedMap
import Observatory.CommandLine.Arguments
import Observatory.Document.Json
import Observatory.Service.Operations

/-! Answers of the command line.

A command line is answered from the files it names and the environment: settings are
loaded, overlaid and checked, then the catalog is loaded, then the command is carried
out. The answer is a document, written on many lines; a failure has an exit code and
nothing is written. -/
namespace Observatory.CommandLine

/-- What there is at a path. -/
inductive FileContent where
  | missing
  /-- Something that is no readable text. -/
  | unreadable
  | text (content : String)

/-- Why a command line has no answer. -/
inductive Failure where
  /-- The arguments make no sense. -/
  | usage
  /-- The settings of the service are not readable. -/
  | settings
  | request (error : Error)

namespace Failure

def exitCode : Failure → Nat
  | usage => 2
  | settings => 1
  | request _ => 1

def message : Failure → String
  | usage => "Unknown, missing or superfluous arguments"
  | settings => "The configuration file cannot be read"
  | request error => error.message

end Failure

/-- Loads the stored settings of the service. Without a file they are the usual ones. -/
def loadStored : FileContent → Except Failure Config
  | .missing => .ok Config.standard
  | .unreadable => .error .settings
  | .text content =>
    match Config.ofYaml? content with
    | some config => .ok config
    | none => .error .settings

/-- Loads the settings of the service and checks them, the environment overlaying those
stored. -/
def loadConfig (env : Environment) (file : FileContent) : Except Failure Config := do
  let config := (← loadStored file).overlay env
  config.validate.mapError Failure.request
  return config

def loadCatalog : FileContent → Except Failure Catalog
  | .text content => (Catalog.ofYaml content).mapError Failure.request
  | _ => throw (.request (.storage "Failed to read catalog"))

/-- The query of the parameters of a command. Of equal keys the last one counts. -/
def queryOf (s : Service) (parameters : Parameters) : Except Error Query :=
  s.query (SortedMap.ofList parameters).entries

/-- Carries out an operation of a service of which nothing was asked before. -/
def fresh {α : Type} (s : Service) (action : Action α) : Except Error α :=
  (action.run s.freshRegistry).1

def Command.answer (s : Service) : Command → Except Error Document
  | datasets parameters => do
    let outputs ← s.datasets (← queryOf s parameters)
    return Document.ofList DatasetOutput.toDocument outputs
  | data dataset parameters => do
    let output ← fresh s (s.data dataset (← queryOf s parameters))
    return output.toDocument
  | extras dataset parameters => do
    let extras ← fresh s (s.datasetExtras dataset (← queryOf s parameters))
    return extras.toDocument
  | parents platform => do
    let extras ← s.platformExtras platform s.config.options
    return extras.toDocument
  | reachable dimension parameters => do
    let entities ← s.reachable dimension (← queryOf s parameters)
    return Document.ofList CondensedEntity.toDocument entities
  | types => return Document.ofList .text s.knownTypes.toList

/-- Answers a command line from the files that it names. -/
def Arguments.answer (env : Environment) (config catalog : FileContent) (a : Arguments) :
    Except Failure Document := do
  let config ← loadConfig env config
  let catalog ← loadCatalog catalog
  (a.command.answer ⟨config, catalog.store⟩).mapError Failure.request

/-- What a program leaves behind. -/
structure Outcome where
  exitCode : Nat
  output : String

/-- The outcome of an answer: the document on many lines, or nothing but an exit code. -/
def Outcome.ofAnswer : Except Failure Document → Outcome
  | .ok d => ⟨0, Document.Json.pretty d ++ "\n"⟩
  | .error failure => ⟨failure.exitCode, ""⟩

/-- Runs a command line over some files and an environment. -/
def run (files : String → FileContent) (env : Environment) (args : List String) : Outcome :=
  Outcome.ofAnswer <|
    match Arguments.read? env args with
    | none => .error .usage
    | some a => a.answer env (files a.config) (files a.catalog)

end Observatory.CommandLine
