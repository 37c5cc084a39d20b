import RouteDepot.Context.Merge
import RouteDepot.Load.Error
import RouteDepot.QualifiedName

/-! # Loading sources

A load takes a source from its location to the bundle that it defines, and adds the REST configurations of the
bundle to a context. The context is touched by the last step alone, so a load that fails leaves it as it was.
Sources are loaded one after another; a source that fails does not keep the next one from being loaded.
-/

namespace RouteDepot

/-- A compiled text: it may make an instance, which defines a bundle when it is configured against properties. -/
structure CompiledUnit where
  instantiate : Except RouteClass.InstantiationError (Properties → Except RouteClass.ConfigureError Bundle)

/-- What turns texts of one language into compiled units. -/
structure Compiler where
  language : String
  /-- The end of a source's name that is no part of the qualified name. -/
  suffix : String
  compile : (qualifiedName content : String) → Except RouteClass.CompileError CompiledUnit

/-- What loads sources: a context and a source give the context after the load, and a bundle or an error. -/
structure Loader where
  /-- The languages that a loader speaks for. -/
  languages : List String
  load : Context → Source → Context × Except LoadError Bundle

namespace Compiler

/-- The bundle that a text defines when it is configured against properties. The load is in a stage when the text has
its name, and comes to the stage that is given with the bundle. -/
def bundleOfContent (c : Compiler) (properties : Properties) (source : Source) (stage : LoadStage) (content : String) :
    Except LoadError (LoadStage × Bundle) := do
  let qualifiedName := QualifiedName.determine source.name content c.suffix
  let unit ← (c.compile qualifiedName content).mapError fun e =>
    { LoadError.of source stage (.compilation e) with content? := some content }
  let stage := stage.next
  let define ← unit.instantiate.mapError fun e => .of source stage (.instantiation e)
  let stage := stage.next
  let bundle ← (define properties).mapError fun e => .of source stage (.configuration e)
  return (stage.next, bundle)

/-- The bundle that a source defines, and the stage that its load comes to with it; `resolve` finds the text at a
location. -/
def bundleOf (c : Compiler) (resolve : String → Except ResolutionError String) (properties : Properties)
    (source : Source) : Except LoadError (LoadStage × Bundle) :=
  let stage := LoadStage.resolving
  if source.language = c.language then do
    let content ← (resolve source.location).mapError fun e => .of source stage (.resolution e)
    c.bundleOfContent properties source stage.next content
  else .error (.of source stage (.unsupportedLanguage source.language [c.language]))

/-- Loads a source: its bundle, and the context with the configurations of the bundle added. -/
def load (c : Compiler) (resolve : String → Except ResolutionError String) (context : Context)
    (source : Source) : Context × Except LoadError Bundle :=
  match c.bundleOf resolve context.properties source with
  | .error e => (context, .error e)
  | .ok (stage, bundle) =>
    match context.merge bundle.configurations with
    | .error e => (context, .error (.of source stage (.merge e)))
    | .ok merged => (merged, .ok bundle)

/-- The loader for the language of a compiler. -/
def loader (c : Compiler) (resolve : String → Except ResolutionError String) : Loader :=
  ⟨[c.language], c.load resolve⟩

end Compiler

/-- The compiler for route classes. -/
def RouteClass.compiler : Compiler where
  language := "java"
  suffix := ".java"
  compile qualifiedName content := (RouteClass.compile qualifiedName content).map fun program =>
    ⟨(RouteClass.Instance.create program).map RouteClass.Instance.bundle⟩

/-- The loader for route classes whose texts a resolver finds. -/
def RouteClass.loader (resolver : Resolver) : Loader := RouteClass.compiler.loader resolver.content

/-! ### Several sources -/

/-- What came of one source. -/
structure LoadResult where
  source : Source
  outcome : Except LoadError Bundle

namespace LoadResult

/-- The bundle of a source that was loaded. -/
def bundle? (r : LoadResult) : Option Bundle :=
  match r.outcome with
  | .ok bundle => some bundle
  | .error _ => none

/-- The error of a source that was not loaded. -/
def error? (r : LoadResult) : Option LoadError :=
  match r.outcome with
  | .ok _ => none
  | .error error => some error

end LoadResult

/-- What came of several sources, and the context that they left. -/
structure LoadReport where
  results : List LoadResult
  context : Context

/-- Loads sources one after another, each into the context that the one before it left. -/
def Loader.loadAll (l : Loader) (context : Context) : List Source → LoadReport
  | [] => ⟨[], context⟩
  | source :: sources =>
    let (next, outcome) := l.load context source
    let report := l.loadAll next sources
    { report with results := ⟨source, outcome⟩ :: report.results }

/-- There is one result for each source, in the order of the sources. -/
theorem Loader.source_loadAll (l : Loader) (context : Context) (sources : List Source) :
    (l.loadAll context sources).results.map LoadResult.source = sources := by
  induction sources generalizing context with
  | nil => rfl
  | cons source sources ih => simp [loadAll, ih]

namespace LoadReport

/-- The locations and bundles of the sources that were loaded. -/
def loaded (r : LoadReport) : List (String × Bundle) :=
  r.results.filterMap fun result => result.bundle?.map (result.source.location, ·)

/-- The locations and errors of the sources that were not loaded. -/
def failed (r : LoadReport) : List (String × LoadError) :=
  r.results.filterMap fun result => result.error?.map (result.source.location, ·)

/-- Whether every source was loaded. -/
def isSuccess (r : LoadReport) : Bool := r.failed.isEmpty

end LoadReport

end RouteDepot
