import RouteDepot.Proofs.Load.AllOrNothing
import RouteDepot.Proofs.Load.Stopping

/-! # Loads commute

What a source comes to is settled by the properties of the context. Either every context refuses it with the same
fault, or it offers one bundle and one batch, and a context takes them unless the batch clashes with what is held.
Agreement of configurations has no order, so sources that are all loaded in one order are all loaded in every order.
-/

namespace RouteDepot.Loader

open Context (Accepts)

variable {l : Loader} {properties : Properties} {context : Context} {source : Source} {sources : List Source}

/-- A load that ends because of what the context holds. -/
def Conflicts (outcome : Except LoadError Bundle) : Prop :=
  ∃ location component,
    outcome = .error ⟨location, .configured, .merge (.conflictingRestConfiguration component), none⟩

/-! ### One source -/

/-- Every context with these properties refuses a source with the same fault. -/
def Refuses (l : Loader) (properties : Properties) (source : Source) : Prop :=
  ∃ fault, ∀ context : Context, context.properties = properties → l.load context source = (context, .error fault)

/-- Every context with these properties takes the same bundle and batch from a source, unless there is a conflict. -/
structure Offers (l : Loader) (properties : Properties) (source : Source) (bundle : Bundle)
    (batch : List RestConfiguration) : Prop where
  means : bundle.Means properties batch
  taken : ∀ context : Context, context.properties = properties → Accepts context.held batch →
    l.load context source = (context.extend batch, .ok bundle)
  conflicts : ∀ context : Context, context.properties = properties → ¬ Accepts context.held batch →
    Conflicts (l.load context source).2

/-- What a source comes to does not depend on what a context holds, conflicts aside. -/
def Settles (l : Loader) (properties : Properties) (source : Source) : Prop :=
  l.Refuses properties source ∨ ∃ bundle batch, l.Offers properties source bundle batch

theorem settles_compiler (c : Compiler) (resolve : String → Except ResolutionError String) (properties : Properties)
    (source : Source) : (c.loader resolve).Settles properties source := by
  cases defined : c.bundleOf resolve properties source with
  | error fault =>
    refine .inl ⟨fault, ?_⟩
    rintro context rfl
    simp only [Compiler.loader, Compiler.load, defined]
  | ok loaded =>
    obtain ⟨stage, bundle⟩ := loaded
    cases resolved : Context.resolveDrafts properties bundle.configurations with
    | error fault =>
      refine .inl ⟨.of source stage (.merge fault), ?_⟩
      rintro context rfl
      have merged : context.merge bundle.configurations = .error fault := by
        rw [Context.merge, resolved, Except.bind_error]
      simp only [Compiler.loader, Compiler.load, defined, merged]
    | ok batch =>
      refine .inr ⟨bundle, batch, Except.forall₂_of_mapM_eq_ok resolved, ?_, ?_⟩
      · rintro context rfl accepts
        have merged : context.merge bundle.configurations = .ok (context.extend batch) := by
          rw [Context.merge, resolved, Except.bind_ok, Context.add_of_accepts accepts]
        simp only [Compiler.loader, Compiler.load, defined, merged]
      · rintro context rfl refused
        obtain ⟨_, c, _, _, _, _, failed⟩ := Context.add_of_not_accepts refused
        have merged : context.merge bundle.configurations = .error (.conflictingRestConfiguration c.key) := by
          rw [Context.merge, resolved, Except.bind_ok, failed]
        obtain ⟨rfl, _⟩ := Compiler.bundleOf_eq_ok_iff.mp defined
        refine ⟨source.location, c.key, ?_⟩
        simp only [Compiler.loader, Compiler.load, defined, merged, LoadError.of]

theorem settles_registry (r : LoaderRegistry)
    (parts : ∀ entry ∈ r.loaders.entries, entry.2.Settles properties source) : r.loader.Settles properties source := by
  cases found : r.loader? source.language with
  | none =>
    refine .inl ⟨.of source .resolving (.unsupportedLanguage source.language r.languages), ?_⟩
    intro context _
    simp only [LoaderRegistry.loader, LoaderRegistry.load, found]
  | some part =>
    obtain ⟨before, after, split, _⟩ := List.lookup_eq_some_iff.mp found
    have loads : ∀ context, r.loader.load context source = part.load context source := by
      intro context
      simp only [LoaderRegistry.loader, LoaderRegistry.load, found]
    have settled : part.Settles properties source := parts (source.language, part) (by simp [split])
    rcases settled with ⟨fault, refuses⟩ | ⟨bundle, batch, means, taken, conflicts⟩
    · exact .inl ⟨fault, fun context same => (loads context).trans (refuses context same)⟩
    · refine .inr ⟨bundle, batch, means, fun context same accepts => ?_, fun context same refused => ?_⟩
      · exact (loads context).trans (taken context same accepts)
      · rw [loads context]
        exact conflicts context same refused

/-- Through an assembled loader every source is settled by the properties. -/
theorem Assembled.settles (assembled : l.Assembled) (properties : Properties) (source : Source) :
    l.Settles properties source := by
  induction assembled with
  | compiler c resolve => exact settles_compiler c resolve properties source
  | registry r _ ih => exact settles_registry r ih

/-- In two contexts with the same properties a source comes to the same, unless one of them has a conflict. -/
theorem Settles.outcome_eq {first second : Context} (settles : l.Settles first.properties source)
    (same : first.properties = second.properties) :
    (l.load first source).2 = (l.load second source).2 ∨ Conflicts (l.load first source).2 ∨
      Conflicts (l.load second source).2 := by
  rcases settles with ⟨fault, refuses⟩ | ⟨bundle, batch, _, taken, conflicts⟩
  · left
    rw [refuses first rfl, refuses second same.symm]
  by_cases accepts : Accepts first.held batch
  · by_cases accepts' : Accepts second.held batch
    · left
      rw [taken first rfl accepts, taken second same.symm accepts']
    · exact .inr (.inr (conflicts second same.symm accepts'))
  · exact .inr (.inl (conflicts first rfl accepts))

/-- A load that succeeds takes what was offered. -/
theorem Offers.of_load_eq_ok {bundle taken : Bundle} {batch : List RestConfiguration} {next : Context}
    (offers : l.Offers context.properties source bundle batch)
    (success : l.load context source = (next, .ok taken)) :
    Accepts context.held batch ∧ next = context.extend batch ∧ taken = bundle := by
  by_cases accepts : Accepts context.held batch
  · rw [offers.taken context rfl accepts, Prod.mk.injEq, Except.ok.injEq] at success
    exact ⟨accepts, success.1.symm, success.2.symm⟩
  · obtain ⟨_, _, failed⟩ := offers.conflicts context rfl accepts
    rw [success] at failed
    cases failed

/-! ### Many sources -/

theorem isSuccess_loadAll_cons :
    (l.loadAll context (source :: sources)).isSuccess ↔
      ∃ next bundle, l.load context source = (next, .ok bundle) ∧ (l.loadAll next sources).isSuccess := by
  rcases result : l.load context source with ⟨next, _ | bundle⟩ <;>
    simp [loadAll, result, LoadReport.isSuccess, LoadReport.failed, LoadResult.error?]

/-- When a run loads every source, each of them offers a bundle. -/
theorem offers_of_isSuccess (settles : ∀ source, l.Settles context.properties source)
    (loaded : (l.loadAll context sources).isSuccess) :
    ∀ source ∈ sources, ∃ bundle batch, l.Offers context.properties source bundle batch := by
  induction sources generalizing context with
  | nil => simp
  | cons first later ih =>
    obtain ⟨next, taken, success, loaded⟩ := isSuccess_loadAll_cons.mp loaded
    rcases settles first with ⟨fault, refuses⟩ | ⟨bundle, batch, offers⟩
    · rw [refuses context rfl] at success
      cases success
    · obtain ⟨_, rfl, _⟩ := offers.of_load_eq_ok success
      have rest := @ih (context.extend batch) settles loaded
      exact List.forall_mem_cons.mpr ⟨⟨bundle, batch, offers⟩, rest⟩

section Batches

variable {bundle : Source → Bundle} {batch : Source → List RestConfiguration}

/-- The batches of a run that loads every source are accepted together. -/
theorem accepts_of_isSuccess
    (offers : ∀ source ∈ sources, l.Offers context.properties source (bundle source) (batch source))
    (loaded : (l.loadAll context sources).isSuccess) : Accepts context.held (sources.flatMap batch) := by
  induction sources generalizing context with
  | nil => exact Context.accepts_nil _
  | cons first later ih =>
    obtain ⟨next, taken, success, loaded⟩ := isSuccess_loadAll_cons.mp loaded
    obtain ⟨offersFirst, offersLater⟩ := List.forall_mem_cons.mp offers
    obtain ⟨accepts, rfl, _⟩ := offersFirst.of_load_eq_ok success
    have rest := @ih (context.extend (batch first)) offersLater loaded
    rw [List.flatMap_cons]
    exact Context.accepts_append.mpr ⟨accepts, rest⟩

/-- Sources whose batches are accepted together are all loaded, one batch behind the other. -/
theorem loadAll_of_accepts
    (offers : ∀ source ∈ sources, l.Offers context.properties source (bundle source) (batch source))
    (accepts : Accepts context.held (sources.flatMap batch)) :
    l.loadAll context sources =
      ⟨sources.map fun source => ⟨source, .ok (bundle source)⟩, context.extend (sources.flatMap batch)⟩ := by
  induction sources generalizing context with
  | nil => simp [loadAll]
  | cons first later ih =>
    obtain ⟨offersFirst, offersLater⟩ := List.forall_mem_cons.mp offers
    rw [List.flatMap_cons] at accepts
    obtain ⟨acceptsFirst, acceptsLater⟩ := Context.accepts_append.mp accepts
    have rest := @ih (context.extend (batch first)) offersLater acceptsLater
    simp only [loadAll, offersFirst.taken context rfl acceptsFirst, rest, List.map_cons, List.flatMap_cons,
      Context.extend_append]

end Batches

/-- When a run loads every source, a run over the same sources in any other order loads each of them with the same
bundle and ends with the same batches in that order. And whatever two contexts with the same properties hold, a source
comes to the same bundle or fault in both, unless one of them has a conflict. -/
theorem loads_commute (assembled : l.Assembled) :
    (∀ (context : Context) (sources : List Source), (l.loadAll context sources).isSuccess →
      ∃ (bundle : Source → Bundle) (batch : Source → List RestConfiguration),
        (∀ source ∈ sources, (bundle source).Means context.properties (batch source)) ∧
        ∀ permuted : List Source, permuted.Perm sources →
          l.loadAll context permuted =
            ⟨permuted.map fun source => ⟨source, .ok (bundle source)⟩,
              { context with held := context.held ++ permuted.flatMap batch }⟩) ∧
    ∀ (first second : Context) (source : Source), first.properties = second.properties →
      (l.load first source).2 = (l.load second source).2 ∨ Conflicts (l.load first source).2 ∨
        Conflicts (l.load second source).2 := by
  refine ⟨fun context sources loaded => ?_, fun first second source same => (assembled.settles _ source).outcome_eq same⟩
  have offered := offers_of_isSuccess (assembled.settles context.properties) loaded
  have offered : ∀ source, ∃ bundle batch, source ∈ sources → l.Offers context.properties source bundle batch := by
    intro source
    by_cases member : source ∈ sources
    · obtain ⟨bundle, batch, offers⟩ := offered source member
      exact ⟨bundle, batch, fun _ => offers⟩
    · exact ⟨{}, [], fun absent => absurd absent member⟩
  choose bundle batch offers using offered
  refine ⟨bundle, batch, fun source member => (offers source member).means, fun permuted same => ?_⟩
  have accepts : Accepts context.held (sources.flatMap batch) := accepts_of_isSuccess offers loaded
  have reordered : (permuted.flatMap batch).Perm (sources.flatMap batch) := same.flatMap fun _ _ => .refl _
  have offersPermuted : ∀ source ∈ permuted, l.Offers context.properties source (bundle source) (batch source) :=
    fun source member => offers source (same.mem_iff.mp member)
  exact loadAll_of_accepts offersPermuted (accepts.perm reordered)

end RouteDepot.Loader

namespace RouteDepot

/-- The source of a class that asks for a REST configuration of a component. -/
def Source.ofComponent (component : String) : Source where
  name := "B.java"
  location := "inline:class B extends RouteBuilder \x7b void configure() \x7b restConfiguration(\"" ++ component ++
    "\"); \x7d \x7d"
  language := "java"

/-- Two sources for different components are loaded in either order. -/
theorem Loader.loads_commute_two_components :
    let sources := [.ofPort "1", .ofComponent "jetty"]
    LoaderRegistry.inline.loader.Assembled ∧
    (LoaderRegistry.inline.loader.loadAll { name := "shared" } sources).isSuccess ∧
    ∃ (bundle : Source → Bundle) (batch : Source → List RestConfiguration),
      (∀ source ∈ sources, (bundle source).Means .empty (batch source)) ∧
      LoaderRegistry.inline.loader.loadAll { name := "shared" } sources.reverse =
        ⟨sources.reverse.map fun source => ⟨source, .ok (bundle source)⟩,
          { name := "shared", held := [] ++ sources.reverse.flatMap batch }⟩ := by
  intro sources
  have loaded : (LoaderRegistry.inline.loader.loadAll { name := "shared" } sources).isSuccess := by decide +kernel
  obtain ⟨bundle, batch, means, permuted⟩ := (loads_commute inline_assembled).1 { name := "shared" } sources loaded
  exact ⟨inline_assembled, loaded, bundle, batch, means, permuted sources.reverse sources.reverse_perm⟩

end RouteDepot
