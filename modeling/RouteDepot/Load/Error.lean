import RouteDepot.Context.Error
import RouteDepot.Load.Resolution
import RouteDepot.Load.Stage
import RouteDepot.RouteClass.Compile
import RouteDepot.RouteClass.Instance

/-! # Failed loads

A load fails at one stage and for one reason. Where a compilation fails, the text that was compiled is kept beside the
reason, so that the diagnostics can be drawn.
-/

namespace RouteDepot

/-- Why a load fails. -/
inductive LoadFault where
  | resolution (error : ResolutionError)
  | compilation (error : RouteClass.CompileError)
  | instantiation (error : RouteClass.InstantiationError)
  | configuration (error : RouteClass.ConfigureError)
  | merge (error : ContextError)
  | unsupportedLanguage (language : String) (supported : List String)
  deriving DecidableEq, Repr

namespace LoadFault

/-- The wording of the reason. -/
def message : LoadFault → String
  | resolution error => s!"resolution error: {error.message}"
  | compilation error => error.message
  | instantiation error => s!"instantiation error: {error.message}"
  | configuration error => s!"configuration error: {error.message}"
  | merge error => s!"merge error: {error.message}"
  | unsupportedLanguage language supported =>
    let names := ", ".intercalate supported
    s!"unsupported language '{language}' (supported: {names})"

/-- The messages about the text that was compiled in vain. -/
def diagnostics : LoadFault → List Diagnostic
  | compilation error => error.diagnostics
  | _ => []

/-- Whether the source is at fault; what the context already holds is at fault otherwise. -/
def isSourceFault : LoadFault → Bool
  | merge _ => false
  | _ => true

end LoadFault

/-- A failed load: of which source, how far it came, and why it came no further. -/
structure LoadError where
  location : String
  stage : LoadStage
  fault : LoadFault
  /-- The text that was compiled in vain. -/
  content? : Option String
  deriving DecidableEq, Repr

namespace LoadError

/-- A load of a source that stops at a stage, with no text kept. -/
def of (source : Source) (stage : LoadStage) (fault : LoadFault) : LoadError := ⟨source.location, stage, fault, none⟩

/-- The wording of a failed load. -/
def message (e : LoadError) : String :=
  s!"failed to load '{e.location}' (stage: {e.stage.name}): {e.fault.message}"

end LoadError

end RouteDepot
