import RouteDepot.CommandLine.Arguments
import RouteDepot.Load.Printed
import RouteDepot.Load.Registry
import RouteDepot.Settings
import RouteDepot.Settings.VariableFile

/-! # Runs of the command line

A run takes its settings from variables and arguments, loads all sources into one context, and prints the
report. The first thing that is wrong ends it; a report with failed sources is printed all the same.
-/

namespace RouteDepot.CommandLine

/-- Why a run is no success. -/
inductive RunError where
  | arguments (fault : ArgumentFault)
  | noSources
  | properties (path : String) (fault : Settings.PropertiesFault)
  | source (uri : String) (error : SourceError)
  | failedLoads (failed total : Nat)
  deriving DecidableEq, Repr

/-- An error and its cause, as they are printed. -/
def withCause (message cause : String) : List String :=
  [s!"Error: {message}", "", "Caused by:"] ++ (Text.pieces '\n' cause).map ("    " ++ ·)

/-- The lines that a run prints about what is wrong. -/
def RunError.printed : RunError → List String
  | .arguments fault => [fault.message]
  | .noSources => ["Error: no route sources given: pass --route or set SWITCHYARD_ROUTES"]
  | .properties path fault => withCause s!"failed to load properties from {path}" fault.message
  | .source uri error => withCause s!"invalid route source '{uri}'" error.message
  | .failedLoads failed total => [s!"Error: {failed} of {total} route sources failed to load"]

/-- The exit code of a run that is no success. -/
def RunError.exitCode : RunError → UInt32
  | .arguments _ => 2
  | _ => 1

/-- What a run prints as its result. -/
inductive Output where
  | nothing
  | lines (texts : List String)
  | json (value : Json)

/-- What comes of a run. -/
structure Outcome where
  output : Output
  error : Option RunError

/-- The exit code of a run. -/
def Outcome.exitCode (o : Outcome) : UInt32 :=
  match o.error with
  | none => 0
  | some error => error.exitCode

/-- The settings of variables with those of arguments added. -/
def settings (environment : Environment) (a : Arguments) : Settings :=
  let base :=
    match a.profile with
    | some profile => Settings.ofProfile environment profile
    | none => Settings.ofEnvironment environment
  { base with
    routes := base.routes ++ a.routes
    classpath := base.classpath ++ a.classpath
    propertiesFile := a.properties.or base.propertiesFile }

/-- The sources that URIs name, up to the first that names none. -/
def sources (uris : List String) : Except RunError (List Source) :=
  uris.mapM fun uri => (Source.ofUri uri).mapError (.source uri)

/-- Loads what settings ask for. -/
def loadAll (surroundings : Surroundings) (s : Settings) : Except RunError LoadReport := do
  if s.routes.isEmpty then throw .noSources
  let properties ← (s.properties surroundings).mapError (.properties (s.propertiesFile.getD ""))
  let sources ← sources s.routes
  return (RouteClass.loader ⟨surroundings, s.classpath⟩).loadAll { name := s.contextName, properties } sources

/-- The outcome of loads that were made. -/
def outcomeOf (json : Bool) (report : LoadReport) : Outcome where
  output := if json then .json report.listing else .lines report.printed
  error := if report.isSuccess then none else some (.failedLoads report.failed.length report.results.length)

/-- Runs the command line. -/
def run (surroundings : Surroundings) (arguments : List String) : Outcome :=
  let surroundings := surroundings.withVariableFile
  let report := do
    let a ← (Arguments.read arguments).mapError RunError.arguments
    return outcomeOf a.json (← loadAll surroundings (settings surroundings.environment a))
  match report with
  | .ok outcome => outcome
  | .error (.arguments .help) => ⟨.lines [ArgumentFault.help.message], none⟩
  | .error error => ⟨.nothing, some error⟩

/-- The paths that a run may read besides those of variable files. -/
def paths (surroundings : Surroundings) (arguments : List String) : List String :=
  match Arguments.read arguments with
  | .error _ => []
  | .ok a =>
    let s := settings surroundings.withVariableFile.environment a
    let locations := s.routes.filterMap fun uri => (Source.ofUri uri).toOption.map Source.location
    s.propertiesFile.toList ++ locations.flatMap (Resolver.paths s.classpath)

end RouteDepot.CommandLine
