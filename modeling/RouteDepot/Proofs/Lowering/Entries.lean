import RouteDepot.Proofs.Lowering.Body
import RouteDepot.Proofs.Lowering.Call
import Mathlib.Data.List.ReduceOption

/-! # What the calls of a chain become

An expression chains calls, each on what the one before has given. A chain that is lowered without faults has one entry
for each of its calls, in their order. Only two kinds of calls have none of their own: `end`, which takes no arguments,
and the clause that another call takes for itself.
-/

namespace RouteDepot.RouteClass

namespace ChainCall

variable {α : Type} {call : ChainCall} {scope : Scope} {next : Option ChainCall} {later : List ChainCall}

/-- A call that is given no clause and takes the call that follows it for one. -/
def TakesClause (call : ChainCall) : Prop :=
  call.name.name ∈ ["setBody", "transform", "filter"] ∧ call.args = [] ∨
    call.name.name = "setHeader" ∧ call.args.length = 1

/-- A call that is named like a clause. -/
def IsClause (call : ChainCall) : Prop := call.name.name ∈ ["constant", "simple", "header"]

theorem takesNext_iff : call.takesNext ↔ call.TakesClause := by
  unfold takesNext TakesClause
  split
  iterate 3
    rename_i named
    simp [named]
  · rename_i named
    simp [named]
  · rename_i setBody transform filter setHeader
    simp only [Bool.false_eq_true, false_iff, List.mem_cons, List.not_mem_nil, or_false]
    rintro (⟨named | named | named, _⟩ | ⟨named, _⟩)
    · exact setBody named
    · exact transform named
    · exact filter named
    · exact setHeader named

/-- The entries that the calls of a chain become, each call alone or together with the clause that follows it. What a
call says is given by a relation; it says nothing if it closes the definition. -/
inductive Entries (takes : ChainCall → Prop) (tells : ChainCall → Option ChainCall → Option α → Prop) :
    List ChainCall → List α → Prop
  | nil : Entries takes tells [] []
  | closing {call later entries} (named : call.name.name = "end") (empty : call.args = []) (told : tells call none none)
      (rest : Entries takes tells later entries) : Entries takes tells (call :: later) entries
  | alone {call later entry entries} (opens : call.name.name ≠ "end") (complete : ¬takes call)
      (told : tells call none (some entry)) (rest : Entries takes tells later entries) :
      Entries takes tells (call :: later) (entry :: entries)
  | withClause {call clause later entry entries} (opens : call.name.name ≠ "end") (takesClause : takes call)
      (isClause : clause.IsClause) (told : tells call (some clause) (some entry))
      (rest : Entries takes tells later entries) : Entries takes tells (call :: clause :: later) (entry :: entries)

/-- A relation by which `end` alone says nothing. -/
structure EndSaysNothing (tells : ChainCall → Option ChainCall → Option α → Prop) : Prop where
  closing : ∀ {call next}, tells call next none → call.name.name = "end" ∧ call.args = []
  opening : ∀ {call next entry}, tells call next (some entry) → call.name.name ≠ "end"

/-- One more call without a clause of its own. -/
theorem Entries.cons {takes : ChainCall → Prop} {tells : ChainCall → Option ChainCall → Option α → Prop}
    (silent : EndSaysNothing tells) {result : Option α} (complete : ¬takes call) (told : tells call none result)
    {results : List (Option α)} (rest : Entries takes tells later results.reduceOption) :
    Entries takes tells (call :: later) (result :: results).reduceOption := by
  cases result with
  | none =>
    obtain ⟨named, empty⟩ := silent.closing told
    rw [List.reduceOption_cons_of_none]
    exact .closing named empty told rest
  | some entry =>
    rw [List.reduceOption_cons_of_some]
    exact .alone (silent.opening told) complete told rest

/-- The calls of a chain that has no clauses. -/
theorem entries_of_forall₂ {tells : ChainCall → Option ChainCall → Option α → Prop} (silent : EndSaysNothing tells)
    {results : List (Option α)} (each : List.Forall₂ (fun call result => tells call none result) later results) :
    Entries (fun _ => False) tells later results.reduceOption := by
  induction each with
  | nil => exact .nil
  | cons told _ ih => exact .cons silent id told ih

/-! ### Routes -/

theorem MakesClause.isClause {clause : ClauseOperand} (made : call.MakesClause scope clause) : call.IsClause := by
  obtain ⟨found, _, _⟩ := made
  unfold clauseLanguage? at found
  unfold IsClause
  split at found
  iterate 3
    rename_i named
    simp [named]
  · cases found

/-- A call with no argument left for its clause is followed by it. -/
theorem EndsWithClause.exists_isClause {clause : ClauseOperand} (ends : EndsWithClause scope [] next clause) :
    ∃ follower, next = some follower ∧ follower.IsClause := by
  cases ends with
  | follows _ found made => exact ⟨_, found, made.isClause⟩
  | given only => cases only

/-- A call that takes the next one for its clause is followed by a clause. -/
theorem SaysOfRoute.exists_isClause {entry : Option RouteCall} (told : call.SaysOfRoute scope next entry)
    (takes : call.TakesClause) : ∃ clause, next = some clause ∧ clause.IsClause := by
  -- Other calls than the four that `TakesClause` names are told apart by their names.
  cases told with
  | setBody named ends | transform named ends | filter named ends =>
    obtain ⟨_, empty⟩ | ⟨other, _⟩ := takes
    · rw [empty] at ends
      exact ends.exists_isClause
    · simp [named] at other
  | setHeader named args _ ends =>
    obtain ⟨other, _⟩ | ⟨_, single⟩ := takes
    · simp [named] at other
    · obtain rfl : _ = [] := by simpa [args] using single
      exact ends.exists_isClause
  | routeId named | description named | autoStartup named | send named | sendDynamic named | log named
  | removeHeader named | «end» named => simp [TakesClause, named] at takes

theorem saysOfRoute_endSaysNothing : EndSaysNothing fun call next => call.SaysOfRoute scope next where
  closing told := by
    cases told with
    | «end» named empty => exact ⟨named, empty⟩
  opening told := by cases told <;> simp_all

/-- The calls of a route: each says something, if it is not `end`, and the clauses are those that they take. -/
theorem entries_of_withClauses {results : List (Option RouteCall)}
    (each : List.Forall₂ (fun (pair : ChainCall × Option ChainCall) result =>
      pair.1.routeCall scope pair.2 = .done result) (withClauses later) results) :
    Entries TakesClause (fun call next => call.SaysOfRoute scope next) later results.reduceOption := by
  fun_induction withClauses later generalizing results with
  | case1 =>
    cases each
    exact .nil
  | case2 call =>
    cases each with
    | cons first rest =>
      cases rest
      have told := saysOfRoute_of_routeCall first
      refine .cons saysOfRoute_endSaysNothing (fun takes => ?_) told .nil
      obtain ⟨_, absent, _⟩ := told.exists_isClause takes
      cases absent
  | case3 call clause later takesNext ih =>
    cases each with
    | @cons _ result _ results first rest =>
      have told := saysOfRoute_of_routeCall first
      have takes := takesNext_iff.mp takesNext
      obtain ⟨_, found, isClause⟩ := told.exists_isClause takes
      obtain rfl := Option.some.inj found
      cases result with
      | none =>
        have named : call.name.name = "end" := (saysOfRoute_endSaysNothing.closing told).1
        simp [TakesClause, named] at takes
      | some entry =>
        rw [List.reduceOption_cons_of_some]
        exact .withClause (saysOfRoute_endSaysNothing.opening told) takes isClause told (ih rest)
  | case4 call clause later complete ih =>
    cases each with
    | cons first rest =>
      exact .cons saysOfRoute_endSaysNothing (fun takes => complete (takesNext_iff.mpr takes))
        (saysOfRoute_of_routeCall first) (ih rest)

/-! ### REST services and configurations -/

theorem saysOfService_endSaysNothing :
    EndSaysNothing fun (call : ChainCall) (_ : Option ChainCall) => call.SaysOfService scope where
  closing told := by
    cases told with
    | «end» named empty => exact ⟨named, empty⟩
  opening told closes := by
    cases told with
    | verb method | verbAt method =>
      rw [closes] at method
      cases method
    | description named | consumes named | produces named | send named => simp [named] at closes

theorem saysOfConfiguration_endSaysNothing :
    EndSaysNothing fun (call : ChainCall) (_ : Option ChainCall) => call.SaysOfConfiguration scope where
  closing told := by
    cases told with
    | «end» named empty => exact ⟨named, empty⟩
  opening told closes := by
    cases told with
    | set found | property found =>
      rw [closes] at found
      cases found

end ChainCall

/-! ### Chains -/

section Chains

variable {scope : Scope} {first : ChainCall} {later : List ChainCall} {instruction : Instruction}

/-- The entries of a route that calls become. -/
def RouteEntries (scope : Scope) : List ChainCall → List RouteCall → Prop :=
  ChainCall.Entries ChainCall.TakesClause fun call next => call.SaysOfRoute scope next

/-- The entries of a REST service that calls become. -/
def ServiceEntries (scope : Scope) : List ChainCall → List RestCall → Prop :=
  ChainCall.Entries (fun _ => False) fun call _ => call.SaysOfService scope

/-- The entries of a REST configuration that calls become. -/
def ConfigurationEntries (scope : Scope) : List ChainCall → List ConfigurationCall → Prop :=
  ChainCall.Entries (fun _ => False) fun call _ => call.SaysOfConfiguration scope

/-- What a chain of calls becomes. -/
inductive ChainBecomes (scope : Scope) (first : ChainCall) (later : List ChainCall) : Instruction → Prop
  | invocation (listed : first.name.name ∈ scope.methods) (plain : first.args = []) (single : later = []) :
      ChainBecomes scope first later (.invoke first.name.name)
  | route {origin entries} (named : first.name.name = "from") (begins : first.single scope [.str] = .done origin)
      (calls : RouteEntries scope later entries) :
      ChainBecomes scope first later (.route origin entries)
  | rest {path entries} (named : first.name.name = "rest") (begins : first.optional scope [.str] = .done path)
      (calls : ServiceEntries scope later entries) :
      ChainBecomes scope first later (.rest path entries)
  | restConfiguration {component entries} (named : first.name.name = "restConfiguration")
      (begins : first.optional scope [.str] = .done component)
      (calls : ConfigurationEntries scope later entries) :
      ChainBecomes scope first later (.restConfiguration component entries)

theorem entries_of_lowerRoute (lowered : lowerRoute scope first later = .done instruction) :
    ∃ origin entries, instruction = .route origin entries ∧ first.single scope [.str] = .done origin ∧
      RouteEntries scope later entries := by
  obtain ⟨origin, calls, begins, each, rfl⟩ := lowerRoute_eq_done_iff.mp lowered
  exact ⟨origin, _, rfl, begins, ChainCall.entries_of_withClauses each⟩

theorem entries_of_lowerRest (lowered : lowerRest scope first later = .done instruction) :
    ∃ path entries, instruction = .rest path entries ∧ first.optional scope [.str] = .done path ∧
      ServiceEntries scope later entries := by
  obtain ⟨path, calls, begins, each, rfl⟩ := lowerRest_eq_done_iff.mp lowered
  exact ⟨path, _, rfl, begins, ChainCall.entries_of_forall₂ ChainCall.saysOfService_endSaysNothing
    (each.imp fun _ _ => ChainCall.saysOfService_of_restCall)⟩

theorem entries_of_lowerRestConfiguration (lowered : lowerRestConfiguration scope first later = .done instruction) :
    ∃ component entries, instruction = .restConfiguration component entries ∧
      first.optional scope [.str] = .done component ∧
      ConfigurationEntries scope later entries := by
  obtain ⟨component, calls, begins, each, rfl⟩ := lowerRestConfiguration_eq_done_iff.mp lowered
  exact ⟨component, _, rfl, begins, ChainCall.entries_of_forall₂ ChainCall.saysOfConfiguration_endSaysNothing
    (each.imp fun _ _ => ChainCall.saysOfConfiguration_of_configurationCall)⟩

/-- A chain that is lowered without faults becomes an instruction. -/
theorem chainBecomes_of_lowerChain (lowered : lowerChain scope first later = .done instruction) :
    ChainBecomes scope first later instruction := by
  obtain ⟨_, ⟨plain, listed, single, rfl⟩ | ⟨_, ⟨named, route⟩ | ⟨named, rest⟩ | ⟨named, configuration⟩⟩⟩ :=
    lowerChain_eq_done lowered
  · exact .invocation listed plain single
  · obtain ⟨_, _, rfl, begins, calls⟩ := entries_of_lowerRoute route
    exact .route named begins calls
  · obtain ⟨_, _, rfl, begins, calls⟩ := entries_of_lowerRest rest
    exact .rest named begins calls
  · obtain ⟨_, _, rfl, begins, calls⟩ := entries_of_lowerRestConfiguration configuration
    exact .restConfiguration named begins calls

/-- A statement that is lowered without faults becomes the instruction of the calls that it chains. -/
theorem Expression.chains_of_instruction {e : Expression} (lowered : e.instruction scope = .done instruction) :
    ∃ first later, e.Chains (first :: later) ∧ ChainBecomes scope first later instruction := by
  obtain ⟨first, later, taken, lowered⟩ := Expression.instruction_eq_done lowered
  exact ⟨first, later, chains_of_chainCalls taken, chainBecomes_of_lowerChain lowered⟩

end Chains

end RouteDepot.RouteClass
