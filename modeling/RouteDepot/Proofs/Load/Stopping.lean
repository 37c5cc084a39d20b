import RouteDepot.Load.Loader
import RouteDepot.Proofs.Results

/-! # Where a load stops

A load is a walk through its stages: each step takes what the step before has given, and either gives more or stops the
load with a fault. A load that fails has stopped at the state that as many steps lead to as its stage says, all of them
without a fault, and it reports the fault of the next one, with the text that this step was to compile, if it was. A load
that succeeds has come to the end of the walk.
-/

namespace RouteDepot

/-- How far a load has come, with what the step before has given. An instance is given as the bundle that it defines
when it is configured against properties. -/
inductive LoadState where
  | resolving
  | named (qualifiedName content : String)
  | compiled (unit : CompiledUnit)
  | instantiated (define : Properties → Except RouteClass.ConfigureError Bundle)
  | configured (bundle : Bundle)
  | merged (bundle : Bundle) (context : Context)
  | done (bundle : Bundle) (context : Context)

/-- The stage of a load in a state. -/
def LoadState.stage : LoadState → LoadStage
  | resolving => .resolving
  | named .. => .named
  | compiled _ => .compiled
  | instantiated _ => .instantiated
  | configured _ => .configured
  | merged .. => .merged
  | done .. => .done

/-- The text that is to be compiled in a state. -/
def LoadState.content? : LoadState → Option String
  | named _ content => some content
  | _ => none

/-- The stage that a load stops at for a reason. -/
def LoadFault.stage : LoadFault → LoadStage
  | unsupportedLanguage .. | resolution _ => .resolving
  | compilation .. => .named
  | instantiation _ => .compiled
  | configuration _ => .instantiated
  | merge _ => .configured

namespace Compiler

variable (c : Compiler) (resolve : String → Except ResolutionError String) (context : Context) (source : Source)

/-- The state after a step, or the fault that stops the load. -/
def step : LoadState → Except LoadFault LoadState
  | .resolving =>
    if source.language = c.language then
      (fun content => .named (QualifiedName.determine source.name content c.suffix) content) <$>
        (resolve source.location).mapError .resolution
    else .error (.unsupportedLanguage source.language [c.language])
  | .named qualifiedName content =>
    .compiled <$> (c.compile qualifiedName content).mapError .compilation
  | .compiled unit => .instantiated <$> unit.instantiate.mapError .instantiation
  | .instantiated define => .configured <$> (define context.properties).mapError .configuration
  | .configured bundle => .merged bundle <$> (context.merge bundle.configurations).mapError .merge
  | .merged bundle next | .done bundle next => .ok (.done bundle next)

/-- The states that a number of steps lead to, none of which has a fault. -/
inductive Reaches : Nat → LoadState → Prop
  | start : Reaches 0 .resolving
  | step {count : Nat} {state next : LoadState} : Reaches count state →
      c.step resolve context source state = .ok next → Reaches (count + 1) next

/-- What a load comes to from a state on: the context after it, and a bundle or an error. -/
inductive Ends : LoadState → Context × Except LoadError Bundle → Prop
  | done (bundle : Bundle) (next : Context) : Ends (.done bundle next) (next, .ok bundle)
  | stop {state : LoadState} {fault : LoadFault} : c.step resolve context source state = .error fault →
      Ends state (context, .error ⟨source.location, state.stage, fault, state.content?⟩)
  | step {state next : LoadState} {outcome : Context × Except LoadError Bundle} :
      c.step resolve context source state = .ok next → Ends next outcome → Ends state outcome

variable {c resolve context source} {count : Nat} {state next : LoadState} {fault : LoadFault}

/-! ### One step -/

/-- A step goes on to the next stage. -/
theorem stage_step (stepped : c.step resolve context source state = .ok next) : next.stage = state.stage.next := by
  cases state with
  | resolving =>
    by_cases spoken : source.language = c.language
    · obtain ⟨_, _, rfl⟩ := Except.map_eq_ok_iff.mp ((if_pos spoken).symm.trans stepped)
      rfl
    · cases (if_neg spoken).symm.trans stepped
  | named | compiled | instantiated | configured =>
    obtain ⟨_, _, rfl⟩ := Except.map_eq_ok_iff.mp stepped
    rfl
  | merged | done =>
    obtain rfl := Except.ok.inj stepped
    rfl

/-- A step that stops a load has a fault of the stage that the load is in. -/
theorem stage_of_step_eq_error (stopped : c.step resolve context source state = .error fault) :
    fault.stage = state.stage := by
  cases state with
  | resolving =>
    by_cases spoken : source.language = c.language
    · obtain ⟨_, _, rfl⟩ :=
        Except.mapError_eq_error_iff.mp (Except.map_eq_error_iff.mp ((if_pos spoken).symm.trans stopped))
      rfl
    · obtain rfl := Except.error.inj ((if_neg spoken).symm.trans stopped)
      rfl
  | named | compiled | instantiated | configured =>
    obtain ⟨_, _, rfl⟩ := Except.mapError_eq_error_iff.mp (Except.map_eq_error_iff.mp stopped)
    rfl
  | merged | done => cases stopped

/-! ### Many steps -/

/-- Each step that succeeds takes a load one stage further. -/
theorem Reaches.stage_eq (reached : c.Reaches resolve context source count state) :
    state.stage = Nat.repeat LoadStage.next count .resolving := by
  induction reached with
  | start => rfl
  | step _ stepped ih => rw [stage_step stepped, ih, Nat.repeat]

/-- What a load comes to from a reached state on is what it comes to. -/
theorem Reaches.ends (reached : c.Reaches resolve context source count state)
    {outcome : Context × Except LoadError Bundle} (ends : c.Ends resolve context source state outcome) :
    c.Ends resolve context source .resolving outcome := by
  induction reached with
  | start => exact ends
  | step _ stepped ih => exact ih (.step stepped ends)

/-- A load that ends with an error has stopped at a state that was reached. -/
theorem Ends.exists_stop {after : Context} {error : LoadError}
    (ends : c.Ends resolve context source state (after, .error error))
    (reached : c.Reaches resolve context source count state) :
    after = context ∧ ∃ count state, c.Reaches resolve context source count state ∧
      c.step resolve context source state = .error error.fault ∧
      error = ⟨source.location, state.stage, error.fault, state.content?⟩ := by
  generalize outcome : (after, Except.error error) = result at ends
  induction ends generalizing count with
  | done => cases outcome
  | @stop state fault stopped =>
    cases outcome
    exact ⟨rfl, count, state, reached, stopped, rfl⟩
  | step stepped _ ih => exact ih (.step reached stepped) outcome

/-- Nothing comes after the end. -/
theorem Ends.eq_of_done {bundle : Bundle} {after : Context} {outcome : Context × Except LoadError Bundle}
    (ends : c.Ends resolve context source (.done bundle after) outcome) : outcome = (after, .ok bundle) := by
  generalize finished : LoadState.done bundle after = state at ends
  induction ends with
  | done =>
    cases finished
    rfl
  | stop stopped =>
    cases finished
    cases stopped
  | step stepped _ ih =>
    cases finished
    exact ih (Except.ok.inj stepped)

/-- A load comes to one thing from a state on. -/
theorem Ends.unique {outcome outcome' : Context × Except LoadError Bundle}
    (ends : c.Ends resolve context source state outcome) (ends' : c.Ends resolve context source state outcome') :
    outcome = outcome' := by
  induction ends with
  | done => exact ends'.eq_of_done.symm
  | stop stopped =>
    cases ends' with
    | done => cases stopped
    | stop stopped' => rw [Except.error.inj (stopped.symm.trans stopped')]
    | step stepped => cases stopped.symm.trans stepped
  | step stepped later ih =>
    cases ends' with
    | done => exact (Ends.step stepped later).eq_of_done
    | stop stopped => cases stepped.symm.trans stopped
    | step stepped' later' =>
      obtain rfl := Except.ok.inj (stepped.symm.trans stepped')
      exact ih later'

/-! ### Whole loads -/

variable (c resolve context source)

/-- A load comes to what its steps lead to. -/
theorem ends_load : c.Ends resolve context source .resolving (c.load resolve context source) := by
  rw [load, bundleOf]
  split_ifs with spoken
  case neg => exact .stop (if_neg spoken)
  cases resolved : resolve source.location with
  | error error => exact .stop (by simp [step, spoken, resolved])
  | ok content =>
  have first : c.step resolve context source .resolving =
      .ok (.named (QualifiedName.determine source.name content c.suffix) content) := by simp [step, spoken, resolved]
  refine .step first ?_
  simp only [Except.mapError_ok, Except.bind_ok, bundleOfContent]
  cases compiled : c.compile (QualifiedName.determine source.name content c.suffix) content with
  | error error => exact .stop (by simp [step, compiled, LoadError.of])
  | ok unit =>
  have second : c.step resolve context source
      (.named (QualifiedName.determine source.name content c.suffix) content) = .ok (.compiled unit) := by
    simp [step, compiled]
  refine .step second ?_
  simp only [Except.mapError_ok, Except.bind_ok]
  cases made : unit.instantiate with
  | error error => exact .stop (by simp [step, made])
  | ok define =>
  have third : c.step resolve context source (.compiled unit) = .ok (.instantiated define) := by simp [step, made]
  refine .step third ?_
  simp only [Except.mapError_ok, Except.bind_ok]
  cases defined : define context.properties with
  | error error => exact .stop (by simp [step, defined])
  | ok bundle =>
  have fourth : c.step resolve context source (.instantiated define) = .ok (.configured bundle) := by
    simp [step, defined]
  refine .step fourth ?_
  simp only [Except.mapError_ok, Except.bind_ok, Except.pure_eq_ok]
  cases merged : context.merge bundle.configurations with
  | error error => exact .stop (by simp [step, merged])
  | ok next =>
  have fifth : c.step resolve context source (.configured bundle) = .ok (.merged bundle next) := by simp [step, merged]
  exact .step fifth (.step rfl (.done bundle next))

variable {c resolve context source}

/-- Where a text is to be compiled, it is the one that was found for the source, under the name that is determined from
it. -/
theorem Reaches.of_named {qualifiedName content : String}
    (reached : c.Reaches resolve context source count (.named qualifiedName content)) :
    resolve source.location = .ok content ∧
      qualifiedName = QualifiedName.determine source.name content c.suffix := by
  cases reached with
  | @step _ before _ _ stepped =>
  have stage := stage_step stepped
  cases before with
  | resolving =>
    by_cases spoken : source.language = c.language
    · obtain ⟨found, resolved, same⟩ := Except.map_eq_ok_iff.mp ((if_pos spoken).symm.trans stepped)
      obtain ⟨rfl, rfl⟩ := LoadState.named.inj same
      exact ⟨Except.mapError_eq_ok_iff.mp resolved, rfl⟩
    · cases (if_neg spoken).symm.trans stepped
  | _ => cases stage

/-- A load that stops in a state with a text to compile has failed to compile it. -/
theorem exists_of_step_eq_error {content : String} (held : state.content? = some content)
    (stopped : c.step resolve context source state = .error fault) :
    ∃ qualifiedName error, state = .named qualifiedName content ∧ fault = .compilation error ∧
      c.compile qualifiedName content = .error error := by
  cases state with
  | named qualifiedName text =>
    obtain rfl := Option.some.inj held
    obtain ⟨error, failed, rfl⟩ := Except.mapError_eq_error_iff.mp (Except.map_eq_error_iff.mp stopped)
    exact ⟨qualifiedName, error, rfl, rfl, failed⟩
  | _ => cases held

/-- A load fails exactly where a reached state has no next one. -/
theorem load_eq_error_iff {after : Context} {error : LoadError} :
    c.load resolve context source = (after, .error error) ↔
      after = context ∧ error.location = source.location ∧
        ∃ count state, c.Reaches resolve context source count state ∧
          c.step resolve context source state = .error error.fault ∧
          error.stage = Nat.repeat LoadStage.next count .resolving ∧ error.content? = state.content? := by
  constructor
  · intro failed
    have ends := c.ends_load resolve context source
    rw [failed] at ends
    obtain ⟨rfl, count, state, reached, stopped, same⟩ := ends.exists_stop .start
    exact ⟨rfl, congrArg LoadError.location same, count, state, reached, stopped,
      (congrArg LoadError.stage same).trans reached.stage_eq, congrArg LoadError.content? same⟩
  · rintro ⟨rfl, location, count, state, reached, stopped, stage, kept⟩
    have ends := reached.ends (.stop stopped)
    rw [reached.stage_eq, ← stage, ← location, ← kept] at ends
    exact (c.ends_load resolve after source).unique ends

theorem bundleOf_eq_ok_iff {properties : Properties} {stage : LoadStage} {bundle : Bundle} :
    c.bundleOf resolve properties source = .ok (stage, bundle) ↔
      stage = .configured ∧ source.language = c.language ∧ ∃ content unit define, resolve source.location = .ok content ∧
        c.compile (QualifiedName.determine source.name content c.suffix) content = .ok unit ∧
        unit.instantiate = .ok define ∧ define properties = .ok bundle := by
  unfold bundleOf bundleOfContent
  split_ifs with spoken
  · simp only [Except.bind_eq_ok_iff, Except.mapError_eq_ok_iff, Except.pure_eq_ok, Except.ok.injEq, Prod.mk.injEq,
      LoadStage.next, spoken, true_and]
    grind
  · simp [spoken]

/-- A load succeeds when the source defines a bundle and the context takes its configurations. -/
theorem load_eq_ok_iff {after : Context} {bundle : Bundle} :
    c.load resolve context source = (after, .ok bundle) ↔
      c.bundleOf resolve context.properties source = .ok (.configured, bundle) ∧
        context.merge bundle.configurations = .ok after := by
  unfold load
  cases found : c.bundleOf resolve context.properties source with
  | error error => simp
  | ok loaded =>
    obtain ⟨stage, defined⟩ := loaded
    obtain ⟨rfl, _⟩ := bundleOf_eq_ok_iff.mp found
    constructor
    · intro loaded
      dsimp only at loaded
      split at loaded
      · cases loaded
      · next merged =>
        cases loaded
        exact ⟨rfl, merged⟩
    · rintro ⟨same, merged⟩
      obtain ⟨_, rfl⟩ := Prod.mk.inj (Except.ok.inj same)
      simp only [merged]

/-! ### The report of a load -/

variable (c resolve context source)

/-- What a load says about where it came to, whatever the compiler and the resolver do. -/
structure ReportsTruthfully : Prop where
  /-- A load fails where some steps have led to a state whose next step has a fault: it reports that very fault, and a
  stage that is as far from the first as there were steps, and keeps the text that was then to be compiled, if there was
  one; the context stays as it was. -/
  error_iff : ∀ after error, c.load resolve context source = (after, .error error) ↔
    after = context ∧ error.location = source.location ∧
      ∃ count state, c.Reaches resolve context source count state ∧
        c.step resolve context source state = .error error.fault ∧
        error.stage = Nat.repeat LoadStage.next count .resolving ∧ error.content? = state.content?
  /-- Each kind of fault comes with one stage. -/
  stage_eq : ∀ after error, c.load resolve context source = (after, .error error) → error.stage = error.fault.stage
  /-- A language that the compiler does not speak is found out without looking for the text. -/
  foreign : source.language ≠ c.language → ∀ anyResolve, c.load anyResolve context source =
    (context, .error ⟨source.location, .resolving, .unsupportedLanguage source.language [c.language], none⟩)
  /-- A text is kept exactly for a failed compilation: the text that was found, and whose compilation fails so. -/
  content_iff : ∀ after error content, c.load resolve context source = (after, .error error) →
    (error.content? = some content ↔
      ∃ fault, error.fault = .compilation fault ∧ resolve source.location = .ok content ∧
        c.compile (QualifiedName.determine source.name content c.suffix) content = .error fault)
  /-- A load succeeds when every step does: the bundle is the one that the instance defines, and the context is the one
  that its configurations are merged into. -/
  ok_iff : ∀ after bundle, c.load resolve context source = (after, .ok bundle) ↔
    source.language = c.language ∧ ∃ content unit define, resolve source.location = .ok content ∧
      c.compile (QualifiedName.determine source.name content c.suffix) content = .ok unit ∧
      unit.instantiate = .ok define ∧ define context.properties = .ok bundle ∧
      context.merge bundle.configurations = .ok after

/-- Every load reports truthfully where it came to. -/
theorem load_reportsTruthfully : c.ReportsTruthfully resolve context source where
  error_iff _ _ := load_eq_error_iff
  stage_eq after error failed := by
    obtain ⟨_, _, _, state, reached, stopped, stage, _⟩ := load_eq_error_iff.mp failed
    rw [stage, stage_of_step_eq_error stopped, reached.stage_eq]
  foreign different anyResolve := by
    rw [load, bundleOf, if_neg different, LoadError.of]
  content_iff after error content failed := by
    obtain ⟨_, _, _, state, reached, stopped, _, kept⟩ := load_eq_error_iff.mp failed
    rw [kept]
    constructor
    · intro held
      obtain ⟨_, fault, rfl, shape, failing⟩ := exists_of_step_eq_error held stopped
      obtain ⟨resolved, rfl⟩ := reached.of_named
      exact ⟨fault, shape, resolved, failing⟩
    · rintro ⟨fault, shape, resolved, _⟩
      have stage := stage_of_step_eq_error stopped
      rw [shape] at stage
      cases state with
      | named _ text =>
        obtain ⟨found, _⟩ := reached.of_named
        exact congrArg some (Except.ok.inj (found.symm.trans resolved))
      | _ => cases stage
  ok_iff after bundle := by
    rw [load_eq_ok_iff, bundleOf_eq_ok_iff]
    grind

end Compiler

/-- A source that is written into its location. -/
def Source.inline (text : String) : Source := ⟨"A.java", "inline:" ++ text, "java"⟩

/-- The text of a route builder with these members. -/
def membersText (members : String) : String := "class A extends RouteBuilder \x7b " ++ members ++ " \x7d"

/-- A source in another language and one that is not found stop at the first stage, one that does not compile where it has
its name, and one that throws when there is an instance. The one that does not compile alone keeps its text; into whatever
context it is loaded, it reports what the compiler says about this text. -/
theorem Compiler.load_reportsTruthfully_stops :
    let resolver : Resolver := { surroundings := { read := fun _ => .error .missing } }
    let uncompiled := membersText "void configure() \x7b from( \x7d"
    let report := (RouteClass.loader resolver).loadAll { name := "shared" } [
      ⟨"a.xml", "inline:<a/>", "xml"⟩,
      ⟨"A.java", "file:A.java", "java"⟩,
      .inline uncompiled,
      .inline (membersText "void configure() \x7b throw new E(\"run\"); \x7d")]
    (report.failed.map fun stop => (stop.2.stage, stop.2.content?)) =
      [(.resolving, none), (.resolving, none), (.named, some uncompiled), (.instantiated, none)] ∧
    ∃ fault, RouteClass.compiler.compile (QualifiedName.determine "A.java" uncompiled ".java") uncompiled = .error fault ∧
      ∀ context, RouteClass.compiler.load resolver.content context (.inline uncompiled) =
        (context, .error ⟨"inline:" ++ uncompiled, .named, .compilation fault, some uncompiled⟩) := by
  intro resolver uncompiled report
  refine ⟨by decide +kernel, ?_⟩
  have resolved : resolver.content (Source.inline uncompiled).location = .ok uncompiled := by decide +kernel
  have failing : (RouteClass.compiler.compile (QualifiedName.determine "A.java" uncompiled ".java") uncompiled).isOk =
      false := by decide +kernel
  rcases failed : RouteClass.compiler.compile (QualifiedName.determine "A.java" uncompiled ".java") uncompiled with
    fault | unit
  case ok =>
    rw [failed] at failing
    cases failing
  refine ⟨fault, rfl, fun context => ?_⟩
  have truthful := RouteClass.compiler.load_reportsTruthfully resolver.content context (.inline uncompiled)
  have named : RouteClass.compiler.step resolver.content context (.inline uncompiled) .resolving =
      .ok (.named (QualifiedName.determine "A.java" uncompiled ".java") uncompiled) := by
    have spoken : (Source.inline uncompiled).language = RouteClass.compiler.language := rfl
    rw [step, if_pos spoken, resolved]
    rfl
  have stopped : RouteClass.compiler.step resolver.content context (.inline uncompiled)
      (.named (QualifiedName.determine "A.java" uncompiled ".java") uncompiled) = .error (.compilation fault) := by
    rw [step, failed]
    rfl
  exact (truthful.error_iff _ _).mpr ⟨rfl, rfl, 1, _, .step .start named, stopped, rfl, rfl⟩

end RouteDepot
