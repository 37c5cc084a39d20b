import RouteDepot.Ledger
import RouteDepot.Load.Loader

/-! # Loader registries

A registry holds one loader for each language that it knows, in the order of registration. A language stays with the
loader that it was first registered for.
-/

namespace RouteDepot

/-- A loader cannot be registered for a language that has one. -/
structure RegistryError where
  language : String
  deriving DecidableEq, Repr

/-- The wording of a failed registration. -/
def RegistryError.message (e : RegistryError) : String :=
  s!"a loader for language '{e.language}' is already registered"

/-- Loaders by language. -/
structure LoaderRegistry where
  loaders : Ledger Loader := .empty

namespace LoaderRegistry

/-- The languages in the order of registration. -/
def languages (r : LoaderRegistry) : List String := r.loaders.keys

/-- The loader for a language. -/
def loader? (r : LoaderRegistry) (language : String) : Option Loader := r.loaders.get? language

/-- The registry with a loader for all its languages, unless one of them is taken. -/
def register (r : LoaderRegistry) (loader : Loader) : Except RegistryError LoaderRegistry :=
  match loader.languages.find? (r.loader? · |>.isSome) with
  | some taken => .error ⟨taken⟩
  | none => .ok ⟨loader.languages.foldl (fun loaders language => loaders.put language loader) r.loaders⟩

/-- Loads a source through the loader for its language. -/
def load (r : LoaderRegistry) (context : Context) (source : Source) : Context × Except LoadError Bundle :=
  match r.loader? source.language with
  | some loader => loader.load context source
  | none =>
    (context, .error (.of source .resolving (.unsupportedLanguage source.language r.languages)))

/-- A registry as one loader for all its languages. -/
def loader (r : LoaderRegistry) : Loader := ⟨r.languages, r.load⟩

end LoaderRegistry

end RouteDepot
