import RouteDepot.Load.Registry
import RouteDepot.Proofs.Lookup

/-! # Languages keep their loaders

A registry is known by the loaders that it accepted, those that speak for no language of one accepted before: it lists
the languages of these loaders in the order of their first use, and has for each the accepted loader that speaks for it.
One more loader is accepted behind them or refused without a trace, so no language ever gets another loader.
-/

namespace RouteDepot

namespace LoaderRegistry

variable {r : LoaderRegistry} {loader : Loader}

theorem loader?_isSome {language : String} : (r.loader? language).isSome ↔ language ∈ r.languages := Ledger.get?_isSome

theorem loader?_eq_none {language : String} : r.loader? language = none ↔ language ∉ r.languages := by
  rw [← loader?_isSome, Option.not_isSome_iff_eq_none]

/-! ### One call -/

/-- The registry after a call that registers a loader, and what comes of the call. -/
def attempt (r : LoaderRegistry) (loader : Loader) : LoaderRegistry × Except RegistryError Unit :=
  match r.register loader with
  | .ok next => (next, .ok ())
  | .error refusal => (r, .error refusal)

/-- The registry with a loader for all its languages, whatever is registered for them. -/
def bind (r : LoaderRegistry) (loader : Loader) : LoaderRegistry :=
  ⟨loader.languages.foldl (fun loaders language => loaders.put language loader) r.loaders⟩

theorem loader?_bind (r : LoaderRegistry) (loader : Loader) (language : String) :
    (r.bind loader).loader? language = if language ∈ loader.languages then some loader else r.loader? language :=
  Ledger.get?_putAll r.loaders loader.languages loader language

/-- A loader none of whose languages is taken is registered for all of them. -/
theorem attempt_of_free (free : ∀ language ∈ loader.languages, language ∉ r.languages) :
    r.attempt loader = (r.bind loader, .ok ()) := by
  have none : loader.languages.find? (r.loader? · |>.isSome) = none := by
    simpa [loader?_eq_none] using free
  unfold attempt register
  rw [none]
  rfl

/-- A loader is refused for the first of its languages that is taken. -/
theorem attempt_of_taken {before after : List String} {language : String}
    (split : loader.languages = before ++ language :: after) (taken : language ∈ r.languages)
    (free : ∀ other ∈ before, other ∉ r.languages) : r.attempt loader = (r, .error ⟨language⟩) := by
  have found : loader.languages.find? (r.loader? · |>.isSome) = some language := by
    rw [List.find?_eq_some_iff_append]
    exact ⟨loader?_isSome.mpr taken, before, after, split, by simpa [loader?_eq_none] using free⟩
  unfold attempt register
  rw [found]

/-- Among languages of which one is taken, there is a first one that is. -/
theorem exists_first_taken {languages : List String} (clash : ∃ language ∈ languages, language ∈ r.languages) :
    ∃ before language after, languages = before ++ language :: after ∧ language ∈ r.languages ∧
      ∀ other ∈ before, other ∉ r.languages := by
  obtain ⟨language, found⟩ := Option.isSome_iff_exists.mp
    (List.find?_isSome (p := (· ∈ r.languages)).mpr (by simpa using clash))
  obtain ⟨taken, before, after, split, free⟩ := List.find?_eq_some_iff_append.mp found
  exact ⟨before, language, after, split, by simpa using taken, by simpa using free⟩

theorem attempt_eq_error_iff {language : String} :
    (r.attempt loader).2 = .error ⟨language⟩ ↔
      ∃ before after, loader.languages = before ++ language :: after ∧ language ∈ r.languages ∧
        ∀ other ∈ before, other ∉ r.languages := by
  constructor
  · intro refused
    by_cases clash : ∃ language ∈ loader.languages, language ∈ r.languages
    · obtain ⟨before, first, after, split, taken, free⟩ := exists_first_taken clash
      rw [attempt_of_taken split taken free] at refused
      cases refused
      exact ⟨before, after, split, taken, free⟩
    · rw [attempt_of_free fun other member taken => clash ⟨other, member, taken⟩] at refused
      cases refused
  · rintro ⟨before, after, split, taken, free⟩
    rw [attempt_of_taken split taken free]

/-- What comes of a call: the loader is registered for all its languages, or the registry stays as it is. -/
theorem attempt_cases (r : LoaderRegistry) (loader : Loader) :
    ((∀ language ∈ loader.languages, language ∉ r.languages) ∧ r.attempt loader = (r.bind loader, .ok ())) ∨
      ((∃ language ∈ loader.languages, language ∈ r.languages) ∧ ∃ refusal, r.attempt loader = (r, .error refusal)) := by
  by_cases clash : ∃ language ∈ loader.languages, language ∈ r.languages
  · obtain ⟨before, first, after, split, taken, free⟩ := exists_first_taken clash
    exact .inr ⟨clash, ⟨first⟩, attempt_of_taken split taken free⟩
  · have free : ∀ language ∈ loader.languages, language ∉ r.languages := fun other member taken =>
      clash ⟨other, member, taken⟩
    exact .inl ⟨free, attempt_of_free free⟩

/-! ### Histories -/

/-- The registry after a history of calls, each accepted or refused. -/
def attemptAll (r : LoaderRegistry) (loaders : List Loader) : LoaderRegistry :=
  loaders.foldl (fun r loader => (r.attempt loader).1) r

/-- The loaders of a history whose calls succeed. -/
def accepted (r : LoaderRegistry) : List Loader → List Loader
  | [] => []
  | loader :: later =>
    match r.attempt loader with
    | (next, .ok ()) => loader :: next.accepted later
    | (next, .error _) => next.accepted later

/-- A registry that came of loaders: their languages are listed in the order of first use, and each has the first of
the loaders that speaks for it. -/
structure Accounts (loaders : List Loader) (r : LoaderRegistry) : Prop where
  languages : r.languages = (loaders.flatMap Loader.languages).eraseDups
  loader? : ∀ language, r.loader? language = loaders.find? (language ∈ ·.languages)

namespace Accounts

variable {loaders : List Loader}

theorem nil : Accounts [] {} := ⟨rfl, fun _ => rfl⟩

/-- One more loader is accounted for when none of its languages is taken. -/
theorem concat (accounts : Accounts loaders r) (free : ∀ language ∈ loader.languages, language ∉ r.languages) :
    Accounts (loaders ++ [loader]) (r.bind loader) where
  languages := by
    rw [List.flatMap_append, List.flatMap_singleton]
    exact Ledger.keys_putAll accounts.languages loader.languages loader
  loader? language := by
    rw [loader?_bind, List.find?_append, ← accounts.loader?]
    by_cases speaks : language ∈ loader.languages
    · have unbound : r.loader? language = none := loader?_eq_none.mpr (free language speaks)
      simp [speaks, unbound]
    · simp [speaks]

/-- A history of calls adds the loaders that are accepted. -/
theorem attemptAll (accounts : Accounts loaders r) (calls : List Loader) :
    Accounts (loaders ++ r.accepted calls) (r.attemptAll calls) := by
  induction calls generalizing loaders r with
  | nil => simpa [accepted, LoaderRegistry.attemptAll] using accounts
  | cons loader later ih =>
    rw [LoaderRegistry.attemptAll, List.foldl_cons, accepted]
    rcases r.attempt_cases loader with ⟨free, registered⟩ | ⟨_, refusal, refused⟩
    · simp only [registered]
      rw [← List.singleton_append, ← List.append_assoc]
      exact ih (accounts.concat free)
    · simp only [refused]
      exact ih accounts

end Accounts

/-- After any history of calls: one more call is refused exactly when a language of its loader is taken, for the first
such language and without a change, and otherwise registers the loader for all its languages; a language that is taken
keeps its loader through further calls; the languages are those of the loaders that were accepted, each once and in the
order of first use, each with the first of these loaders that speaks for it; and a source is loaded by the loader of its
language, or fails with all languages that are supported. -/
theorem never_rebinds (earlier : List Loader) (loader : Loader) :
    let r := attemptAll {} earlier
    let next := (r.attempt loader).1
    let outcome := (r.attempt loader).2
    (∀ language, outcome = .error ⟨language⟩ ↔
      ∃ before after, loader.languages = before ++ language :: after ∧ language ∈ r.languages ∧
        ∀ other ∈ before, other ∉ r.languages) ∧
    ((∃ refusal, outcome = .error refusal) ↔ ∃ language ∈ loader.languages, language ∈ r.languages) ∧
    (∀ refusal, outcome = .error refusal → next = r) ∧
    (outcome = .ok () → ∀ language,
      next.loader? language = if language ∈ loader.languages then some loader else r.loader? language) ∧
    (∀ language bound later, r.loader? language = some bound →
      (r.attemptAll later).loader? language = some bound) ∧
    r.languages.Nodup ∧ r.languages = ((accepted {} earlier).flatMap Loader.languages).eraseDups ∧
    (∀ language, r.loader? language = (accepted {} earlier).find? (language ∈ ·.languages)) ∧
    (∀ language, language ∈ r.languages ↔ (r.loader? language).isSome) ∧
    ∀ context source,
      (∀ bound, r.loader? source.language = some bound → r.load context source = bound.load context source) ∧
      (source.language ∉ r.languages → r.load context source =
        (context, .error ⟨source.location, .resolving, .unsupportedLanguage source.language r.languages, none⟩)) := by
  intro r next outcome
  have accounts : Accounts (accepted {} earlier) r := Accounts.nil.attemptAll earlier
  refine ⟨fun _ => attempt_eq_error_iff, ?_, ?_, ?_, ?_, r.loaders.unique, accounts.languages, accounts.loader?,
    fun _ => loader?_isSome.symm, fun context source => ⟨?_, ?_⟩⟩
  · constructor
    · rintro ⟨⟨language⟩, refused⟩
      obtain ⟨before, after, split, taken, _⟩ := attempt_eq_error_iff.mp refused
      exact ⟨language, by simp [split], taken⟩
    · intro clash
      obtain ⟨before, language, after, split, taken, free⟩ := exists_first_taken clash
      exact ⟨⟨language⟩, attempt_eq_error_iff.mpr ⟨before, after, split, taken, free⟩⟩
  · intro refusal refused
    rcases r.attempt_cases loader with ⟨_, registered⟩ | ⟨_, _, same⟩
    · simp [outcome, registered] at refused
    · exact congrArg Prod.fst same
  · intro success language
    rcases r.attempt_cases loader with ⟨_, registered⟩ | ⟨_, _, refused⟩
    · exact (congrArg (·.1.loader? language) registered).trans (loader?_bind r loader language)
    · simp [outcome, refused] at success
  · intro language bound later found
    rw [(accounts.attemptAll later).loader?, List.find?_append, ← accounts.loader?, found, Option.some_or]
  · intro bound found
    simp only [load, found]
  · intro free
    simp only [load, loader?_eq_none.mpr free, LoadError.of]

/-- A loader with one language that is taken is registered for none of its languages. -/
example (load : Context → Source → Context × Except LoadError Bundle) :
    (attemptAll {} [⟨["java"], load⟩, ⟨["groovy", "java"], load⟩, ⟨["xml", "yaml", "xml"], load⟩]).languages =
      ["java", "xml", "yaml"] := rfl

end LoaderRegistry

end RouteDepot
