import RouteDepot.Load.Registry
import RouteDepot.Proofs.Context.Growth
import RouteDepot.Proofs.Results

/-! # Loads are all or nothing

A load either adds the whole batch that its bundle means to the held configurations, or leaves the context as it
was. The loader of a compiler has this property because the context is touched by the merge alone, and a registry
inherits it from its parts. A run of loads therefore holds, behind what was held at first, the batches of the loaded
sources in order, and the sources that were not loaded could have been left out.
-/

namespace RouteDepot

/-- The loaders that a program is set up with: those of compilers, and registries of such loaders. -/
inductive Loader.Assembled : Loader → Prop
  | compiler (c : Compiler) (resolve : String → Except ResolutionError String) : Assembled (c.loader resolve)
  | registry (r : LoaderRegistry) (parts : ∀ entry ∈ r.loaders.entries, Assembled entry.2) : Assembled r.loader

/-- A batch holds, in the order of the drafts of a bundle, the configurations that they mean. -/
def Bundle.Means (properties : Properties) (bundle : Bundle) (batch : List RestConfiguration) : Prop :=
  List.Forall₂ (fun entry configuration => entry.2.resolve properties = .ok configuration)
    bundle.configurations.entries batch

@[simp] theorem LoadResult.bundle?_ok (source : Source) (bundle : Bundle) :
    bundle? ⟨source, .ok bundle⟩ = some bundle := rfl

@[simp] theorem LoadResult.bundle?_error (source : Source) (fault : LoadError) :
    bundle? ⟨source, .error fault⟩ = none := rfl

/-- What a load that keeps to all or nothing may come to. -/
def Loader.Keeps (context : Context) : Context × Except LoadError Bundle → Prop
  | (next, .ok bundle) => ∃ batch, bundle.Means context.properties batch ∧ next = context.extend batch
  | (next, .error _) => next = context

/-- A loader adds whole batches, and nothing when a load fails. -/
def Loader.Atomic (l : Loader) : Prop := ∀ context source, Keeps context (l.load context source)

/-! ### One load -/

/-- A merge that succeeds adds exactly what the drafts mean. -/
theorem Context.extend_of_merge {context merged : Context} {bundle : Bundle}
    (success : context.merge bundle.configurations = .ok merged) :
    ∃ batch, bundle.Means context.properties batch ∧ merged = context.extend batch := by
  obtain ⟨batch, resolved, added⟩ := Except.bind_eq_ok_iff.mp success
  refine ⟨batch, Except.forall₂_of_mapM_eq_ok resolved, ?_⟩
  simp only [add] at added
  split at added
  · cases added
  · exact (Except.ok.inj added).symm

theorem Compiler.atomic_loader (c : Compiler) (resolve : String → Except ResolutionError String) :
    (c.loader resolve).Atomic := by
  intro context source
  simp only [Compiler.loader, Compiler.load]
  rcases c.bundleOf resolve context.properties source with fault | ⟨stage, bundle⟩
  case error => rfl
  case ok =>
    cases merged : context.merge bundle.configurations with
    | error fault => simp only [merged]; rfl
    | ok next =>
      simp only [merged]
      exact Context.extend_of_merge merged

theorem LoaderRegistry.atomic_loader (r : LoaderRegistry) (parts : ∀ entry ∈ r.loaders.entries, entry.2.Atomic) :
    r.loader.Atomic := by
  intro context source
  simp only [LoaderRegistry.loader, LoaderRegistry.load, LoaderRegistry.loader?, Ledger.get?]
  cases found : r.loaders.entries.lookup source.language with
  | none => rfl
  | some l =>
    obtain ⟨before, after, split, _⟩ := List.lookup_eq_some_iff.mp found
    exact parts (source.language, l) (by simp [split]) context source

/-- All or nothing passes from compilers to registries of any depth. -/
theorem Loader.Assembled.atomic {l : Loader} (assembled : l.Assembled) : l.Atomic := by
  induction assembled with
  | compiler c resolve => exact c.atomic_loader resolve
  | registry r _ ih => exact r.atomic_loader ih

/-! ### Many loads -/

namespace Loader.Atomic

variable {l : Loader}

/-- A run holds the batches of the loaded sources in order, and nothing else, behind what was held at first. -/
theorem held_loadAll (atomic : l.Atomic) (context : Context) (sources : List Source) :
    ∃ batches, List.Forall₂ (Bundle.Means context.properties)
        ((l.loadAll context sources).results.filterMap LoadResult.bundle?) batches ∧
      (l.loadAll context sources).context = context.extend batches.flatten := by
  induction sources generalizing context with
  | nil => exact ⟨[], .nil, context.extend_nil.symm⟩
  | cons source sources ih =>
    have step := atomic context source
    rcases result : l.load context source with ⟨next, outcome⟩
    rw [result] at step
    obtain ⟨batches, means, final⟩ := ih next
    cases outcome with
    | error fault =>
      -- The context is the one before, so the batches of the other sources are those of the whole run.
      obtain rfl : next = context := step
      refine ⟨batches, ?_, ?_⟩
      · simpa only [loadAll, result, List.filterMap_cons, LoadResult.bundle?_error] using means
      · simpa only [loadAll, result] using final
    | ok bundle =>
      obtain ⟨batch, first, rfl⟩ := step
      rw [Context.properties_extend] at means
      refine ⟨batch :: batches, ?_, ?_⟩
      · simp only [loadAll, result, List.filterMap_cons, LoadResult.bundle?_ok]
        exact .cons first means
      · simpa only [loadAll, result, List.flatten_cons, Context.extend_append] using final

/-- Loading only some of the sources of a run, with every loaded one among them, gives the results that those
sources had and the context that the run left. -/
theorem loadAll_sublist (atomic : l.Atomic) (context : Context) (sources : List Source) {kept : List LoadResult}
    (sublist : kept.Sublist (l.loadAll context sources).results)
    (loaded : kept.filter (·.bundle?.isSome) =
      (l.loadAll context sources).results.filter (·.bundle?.isSome)) :
    l.loadAll context (kept.map LoadResult.source) = ⟨kept, (l.loadAll context sources).context⟩ := by
  induction sources generalizing context kept with
  | nil =>
    obtain rfl := List.sublist_nil.mp sublist
    rfl
  | cons source sources ih =>
    have step := atomic context source
    rcases result : l.load context source with ⟨next, outcome⟩
    rw [result] at step
    simp only [loadAll, result] at sublist loaded ⊢
    cases sublist with
    | cons _ sublist =>
      cases outcome with
      | error fault =>
        obtain rfl : next = context := step
        exact ih next sublist (by simpa [List.filter_cons] using loaded)
      | ok bundle =>
        -- A loaded result cannot be among the deleted ones: `kept` would have one loaded result too few.
        have fewer := (sublist.filter (·.bundle?.isSome)).length_le
        rw [loaded] at fewer
        simp only [List.filter_cons, LoadResult.bundle?_ok, Option.isSome_some, if_true, List.length_cons] at fewer
        omega
    | cons_cons _ sublist =>
      rename_i others
      have rest : others.filter (·.bundle?.isSome) =
          (l.loadAll next sources).results.filter (·.bundle?.isSome) := by
        cases outcome <;> simpa [List.filter_cons] using loaded
      simp only [List.map_cons, loadAll, result, ih next sublist rest]

end Loader.Atomic

/-- Through any assembled loader there is one result for each source, in the order of the sources; the context ends
with what it held at first followed by the batch of every loaded source; and whichever failed sources are deleted,
the other results and the final context stay the same. -/
theorem Loader.loadAll_all_or_nothing {l : Loader} (assembled : l.Assembled) (context : Context)
    (sources : List Source) :
    (l.loadAll context sources).results.map LoadResult.source = sources ∧
    (∃ batches, List.Forall₂ (Bundle.Means context.properties)
        ((l.loadAll context sources).results.filterMap LoadResult.bundle?) batches ∧
      (l.loadAll context sources).context = { context with held := context.held ++ batches.flatten }) ∧
    ∀ kept : List LoadResult, kept.Sublist (l.loadAll context sources).results →
      kept.filter (·.bundle?.isSome) = (l.loadAll context sources).results.filter (·.bundle?.isSome) →
      l.loadAll context (kept.map LoadResult.source) = ⟨kept, (l.loadAll context sources).context⟩ :=
  ⟨l.source_loadAll context sources, assembled.atomic.held_loadAll context sources,
    fun _ sublist loaded => assembled.atomic.loadAll_sublist context sources sublist loaded⟩

/-- A registry that loads route classes written into their locations. -/
def LoaderRegistry.inline : LoaderRegistry :=
  ⟨.put .empty "java" (RouteClass.loader { surroundings := { read := fun _ => .error .missing } })⟩

/-- The source of a class that asks for a port of the default REST configuration. -/
def Source.ofPort (port : String) : Source where
  name := "A.java"
  location := "inline:class A extends RouteBuilder \x7b void configure() \x7b restConfiguration().port(" ++ port ++
    "); \x7d \x7d"
  language := "java"

theorem Loader.inline_assembled : LoaderRegistry.inline.loader.Assembled :=
  .registry _ fun entry member => by
    obtain rfl := List.mem_singleton.mp member
    exact .compiler _ _

/-- Of a source, a faulty one, one in a language without a loader and one that contradicts the first, only the first
is loaded. -/
theorem Loader.loadAll_mixed_sources :
    let sources := [.ofPort "1", .ofPort "1 +", ⟨"a.xml", "inline:<a/>", "xml"⟩, .ofPort "2"]
    let report := LoaderRegistry.inline.loader.loadAll { name := "shared" } sources
    LoaderRegistry.inline.loader.Assembled ∧
    report.results.map (·.bundle?.isSome) = [true, false, false, false] ∧
    report.results.map LoadResult.source = sources ∧
    (∃ batches, List.Forall₂ (Bundle.Means .empty) (report.results.filterMap LoadResult.bundle?) batches ∧
      report.context = { name := "shared", held := [] ++ batches.flatten }) ∧
    LoaderRegistry.inline.loader.loadAll { name := "shared" }
        ((report.results.filter (·.bundle?.isSome)).map LoadResult.source) =
      ⟨report.results.filter (·.bundle?.isSome), report.context⟩ := by
  intro sources report
  have outcome := loadAll_all_or_nothing inline_assembled { name := "shared" } sources
  refine ⟨inline_assembled, by decide +kernel, outcome.1, outcome.2.1, outcome.2.2 _ List.filter_sublist ?_⟩
  rw [List.filter_filter]
  simp only [Bool.and_self, report]

end RouteDepot
