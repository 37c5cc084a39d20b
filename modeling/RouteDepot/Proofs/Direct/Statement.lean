import RouteDepot.Proofs.Direct.Chain
import RouteDepot.Proofs.Lookup
import RouteDepot.Proofs.Running

/-! # Statements mean their instructions

Running a statement directly is running the instructions that it is lowered to: the definitions change in the same
way, up to the same fault, and what ends the one ends the other.
-/

namespace RouteDepot.RouteClass.Direct

open Operand (Reach)

/-! ### Runs of instructions as direct runs -/

namespace Exec

variable {α β : Type}

/-- A run of instructions as a direct run. -/
def ofRun (run : Run α) : Exec α := ExceptT.adapt .failed run

theorem ext {first second : Exec α} (same : ∀ d, first.run.run d = second.run.run d) : first = second :=
  funext same

@[simp] theorem run_ofRun (run : Run α) (d : Definitions) :
    (ofRun run).run.run d = ((run.run.run d).1.mapError .failed, (run.run.run d).2) := rfl

@[simp] theorem run_ofExcept (result : Except Halt α) (d : Definitions) : (ofExcept result).run.run d = (result, d) :=
  rfl

@[simp] theorem ofRun_bind (first : Run α) (next : α → Run β) :
    ofRun (first >>= next) = ofRun first >>= fun a => ofRun (next a) := by
  refine ext fun d => ?_
  rw [run_ofRun, ExceptT.run_bind_state, ExceptT.run_bind_state, run_ofRun]
  rcases first.run.run d with ⟨_ | _, _⟩
  · rfl
  · rfl

@[simp] theorem ofExcept_ok (a : α) : ofExcept (.ok a) = pure a := rfl

theorem ofExcept_bind (first : Except Halt α) (next : α → Except Halt β) :
    ofExcept (first >>= next) = ofExcept first >>= fun a => ofExcept (next a) := by
  cases first <;> rfl

end Exec

/-! ### Chains -/

variable {scope : Scope} {env : Environment} {locals : Locals}

/-- A call of a chain on its receiver. -/
def callOn (env : Environment) (locals : Locals) (r : Receiver) (call : ChainCall) : Exec Receiver := do
  r.call call.name.name (← Exec.ofExcept (env.arguments locals call.args))

/-- The first call of a chain. -/
def startWith (env : Environment) (locals : Locals) (call : ChainCall) : Exec Receiver := do
  Receiver.start env call.name.name (← Exec.ofExcept (env.arguments locals call.args))

/-- A chain runs its calls from the first to the last. -/
theorem chain_eq (env : Environment) (locals : Locals) {e : Expression} {calls : List ChainCall}
    (chained : e.chainCalls = .ok calls) :
    ∃ first later, calls = first :: later ∧
      chain env locals e = startWith env locals first >>= later.foldlM (callOn env locals) := by
  fun_induction Expression.chainCalls e generalizing calls with
  | case1 callee args span =>
    obtain rfl := Except.ok.inj chained
    exact ⟨_, [], rfl, by simp [chain, startWith]⟩
  | case2 _ callee args span =>
    obtain rfl := Except.ok.inj chained
    exact ⟨_, [], rfl, by simp [chain, startWith]⟩
  | case3 target callee args span notThis ih =>
    obtain ⟨before, found, same⟩ := Except.bind_eq_ok_iff.mp chained
    obtain rfl := Except.ok.inj same
    obtain ⟨first, later, rfl, run⟩ := ih found
    refine ⟨first, later ++ [⟨callee, args, span⟩], rfl, ?_⟩
    rw [chain, run]
    · simp [List.foldlM_append, callOn]
    · exact notThis
  | case4 => cases chained

/-- An expression that calls a name without arguments is a chain of that call alone. -/
theorem calledName?_eq_some {e : Expression} {name : String} (called : calledName? e = some name) :
    ∃ first, e.chainCalls = .ok [first] ∧ first.args = [] ∧ first.name.name = name := by
  unfold calledName? at called
  split at called
  · exact ⟨_, rfl, rfl, Option.some.inj called⟩
  · exact ⟨_, rfl, rfl, Option.some.inj called⟩
  · cases called

theorem calledName?_of_chainCalls {e : Expression} {first : ChainCall} (chained : e.chainCalls = .ok [first])
    (args : first.args = []) : calledName? e = some first.name.name := by
  fun_induction Expression.chainCalls e with
  | case1 callee given span =>
    obtain rfl := List.singleton_inj.mp (Except.ok.inj chained)
    obtain rfl : given = [] := args
    rfl
  | case2 _ callee given span =>
    obtain rfl := List.singleton_inj.mp (Except.ok.inj chained)
    obtain rfl : given = [] := args
    rfl
  | case3 target callee given span notThis ih =>
    obtain ⟨before, found, same⟩ := Except.bind_eq_ok_iff.mp chained
    obtain ⟨first, later, rfl, _⟩ := chain_eq ⟨none, [], []⟩ [] found
    simp at same
  | case4 => cases chained

theorem foldlM_callOn_route (calls : List ChainCall) (route : Route) (waiting : Option Waiting) :
    calls.foldlM (callOn env locals) (.route route waiting) =
      (fun state => .route state.1 state.2) <$>
        Exec.ofExcept (calls.foldlM (stepRoute env locals) (route, waiting)) := by
  induction calls generalizing route waiting with
  | nil => rfl
  | cons call later ih =>
    rw [List.foldlM_cons, List.foldlM_cons, Exec.ofExcept_bind, map_bind]
    have step : callOn env locals (.route route waiting) call =
        (fun state => .route state.1 state.2) <$> Exec.ofExcept (stepRoute env locals (route, waiting) call) := by
      simp only [callOn, stepRoute, Receiver.call, Exec.ofExcept_bind, map_bind]
      rfl
    rw [step, bind_map_left]
    exact bind_congr fun state => ih state.1 state.2

theorem foldlM_callOn_service (calls : List ChainCall) (subject : Subject) :
    calls.foldlM (callOn env locals) (.service subject) =
      .service <$> Exec.ofExcept (calls.foldlM (stepService env locals) subject) := by
  induction calls generalizing subject with
  | nil => rfl
  | cons call later ih =>
    rw [List.foldlM_cons, List.foldlM_cons, Exec.ofExcept_bind, map_bind]
    have step : callOn env locals (.service subject) call =
        .service <$> Exec.ofExcept (stepService env locals subject call) := by
      simp only [callOn, stepService, Receiver.call, Exec.ofExcept_bind, map_bind]
      rfl
    rw [step, bind_map_left]
    exact bind_congr fun state => ih state

/-- What the end of a chain on a service defines is the service with all of its verbs. -/
theorem finish_service (run : Except Halt Subject) :
    (do (← Receiver.service <$> Exec.ofExcept run).finish) =
      Exec.ofExcept (Subject.whole <$> run) >>= fun service =>
        modify fun d => { d with services := d.services ++ [service] } := by
  cases run <;> rfl

/-! ### Drafts -/

/-- A draft starts out fresh. -/
theorem draftOf_eq (d : Definitions) (component : String) :
    draftOf d component = ((d.configurations.getD .empty).get? component).getD (freshDraft component) := by
  simp [draftOf, freshDraft]

theorem draftOf_putDraft (d : Definitions) (component : String) (draft : RestConfigurationDraft) :
    draftOf (putDraft d component draft) component = draft := by
  simp [draftOf, putDraft, Ledger.get?_put]

theorem putDraft_putDraft (d : Definitions) (component : String) (first second : RestConfigurationDraft) :
    putDraft (putDraft d component first) component second = putDraft d component second := by
  simp [putDraft]

/-- A chain on a configuration leaves the draft that its calls leave, also when one of them fails. -/
theorem foldlM_callOn_configuration (agrees : Agrees scope env locals) {calls : List ChainCall}
    {results : List (Option ConfigurationCall)}
    (lowered : List.Forall₂ (fun call result => call.configurationCall scope = .done result) calls results)
    (component : String) (d : Definitions) (draft : RestConfigurationDraft) :
    (calls.foldlM (callOn env locals) (.configuration component)).run.run (putDraft d component draft) =
      let (draft, result) := applyConfigurationCalls env.reach draft results.reduceOption
      ((fun _ => .configuration component) <$> result.mapError .failed, putDraft d component draft) := by
  induction lowered generalizing draft with
  | nil => rfl
  | @cons call result calls results first _ ih =>
    have step : (callOn env locals (.configuration component) call).run.run (putDraft d component draft) =
        match stepConfiguration env locals draft call with
        | .ok next => (.ok (.configuration component), putDraft d component next)
        | .error halt => (.error halt, putDraft d component draft) := by
      simp only [callOn, Receiver.call, stepConfiguration, ExceptT.run_bind_state, Exec.run_ofExcept]
      cases env.arguments locals call.args with
      | error halt => rfl
      | ok args =>
        have read : (get : Exec Definitions).run.run (putDraft d component draft) =
            (.ok (putDraft d component draft), putDraft d component draft) := rfl
        simp only [read, draftOf_putDraft, Except.bind_ok]
        cases callConfiguration draft call.name.name args with
        | error halt => rfl
        | ok next =>
          refine Prod.ext rfl ?_
          exact putDraft_putDraft d component draft next
    rw [List.foldlM_cons, ExceptT.run_bind_state, step, stepConfiguration_eq agrees first, reduceOption_cons]
    cases result with
    | none => exact ih draft
    | some change =>
      -- When the call fails, both sides keep the draft that the calls before it have left.
      simp only [Option.toList_some, List.foldlM_cons, List.foldlM_nil, List.singleton_append,
        applyConfigurationCalls]
      cases change.apply env.reach draft with
      | error fault => rfl
      | ok next => exact ih next

/-! ### Single statements -/

/-- The definition begun with an optional text. -/
theorem startWith_optional (agrees : Agrees scope env locals) {first : ChainCall} {operand : Option Operand}
    (lowered : first.optional scope [.str] = .done operand)
    {begin : Option String → Exec Receiver} (without : Receiver.start env first.name.name [] = begin none)
    (given : ∀ value, Receiver.start env first.name.name [.value value] = begin (some value.display)) :
    startWith env locals first =
      Exec.ofExcept ((Operand.evalOptional env.reach operand).mapError .failed) >>= begin := by
  obtain ⟨args, rfl⟩ | ⟨arg, value, args, rfl, gives⟩ := ChainCall.optional_eq_done_iff.mp lowered
  · rw [startWith, args]
    exact without
  · rw [startWith, args, agrees.arguments_single gives, valueOf, Operand.evalOptional, Operand.evalText]
    cases value.eval env.reach with
    | error fault => rfl
    | ok value => exact given value

section Definitions

variable {first : ChainCall} {later : List ChainCall} {instruction : Instruction}

/-- A chain that defines a route. -/
theorem run_route (agrees : Agrees scope env locals) (call : String → Run Unit) (named : first.name.name = "from")
    (notMethod : first.name.name ∉ env.methods) (lowered : lowerRoute scope first later = .done instruction) :
    (do (← startWith env locals first >>= later.foldlM (callOn env locals)).finish) =
      Exec.ofRun (runInstructions env.reach call [instruction]) := by
  obtain ⟨origin, calls, begun, said, rfl⟩ := lowerRoute_eq_done_iff.mp lowered
  obtain ⟨arg, args, gives⟩ := ChainCall.single_eq_done_iff.mp begun
  simp only [startWith, args, agrees.arguments_single gives, valueOf, runInstructions, buildRoute, Operand.evalText]
  cases origin.eval env.reach with
  | error fault => rfl
  | ok uri =>
    have start : Receiver.start env first.name.name [.value uri] = pure (.route { origin := uri.display } none) := by
      unfold Receiver.start
      rw [if_neg notMethod, named]
      rfl
    simp only [Except.mapError_ok, Except.map_ok, Except.bind_ok, Exec.ofExcept_ok, pure_bind, start,
      foldlM_callOn_route, foldlM_stepRoute agrees said]
    cases calls.reduceOption.foldlM (RouteCall.apply env.reach) { origin := uri.display } <;> rfl

/-- A chain that defines a service. -/
theorem run_service (agrees : Agrees scope env locals) (call : String → Run Unit) (named : first.name.name = "rest")
    (notMethod : first.name.name ∉ env.methods) (lowered : lowerRest scope first later = .done instruction) :
    (do (← startWith env locals first >>= later.foldlM (callOn env locals)).finish) =
      Exec.ofRun (runInstructions env.reach call [instruction]) := by
  obtain ⟨path, calls, begun, said, rfl⟩ := lowerRest_eq_done_iff.mp lowered
  have start : startWith env locals first =
      Exec.ofExcept ((Operand.evalOptional env.reach path).mapError .failed) >>=
        fun path => pure (.service (.service { path := path } rfl)) := by
    refine startWith_optional agrees begun ?_ fun value => ?_
    all_goals
      unfold Receiver.start
      rw [if_neg notMethod, named]
      rfl
  rw [start]
  simp only [runInstructions, buildRest]
  cases Operand.evalOptional env.reach path with
  | error fault => rfl
  | ok path =>
    simp only [Except.mapError_ok, Except.bind_ok, Exec.ofExcept_ok, pure_bind, foldlM_callOn_service, finish_service,
      foldlM_stepService agrees said, Subject.whole]
    cases calls.reduceOption.foldlM (RestCall.apply env.reach) { path } <;> rfl

/-- A chain that defines a REST configuration. -/
theorem run_configuration (agrees : Agrees scope env locals) (call : String → Run Unit)
    (named : first.name.name = "restConfiguration") (notMethod : first.name.name ∉ env.methods)
    (lowered : lowerRestConfiguration scope first later = .done instruction) :
    (do (← startWith env locals first >>= later.foldlM (callOn env locals)).finish) =
      Exec.ofRun (runInstructions env.reach call [instruction]) := by
  obtain ⟨component, calls, begun, said, rfl⟩ := lowerRestConfiguration_eq_done_iff.mp lowered
  have start : startWith env locals first =
      Exec.ofExcept ((Operand.evalOptional env.reach component).mapError .failed) >>=
        fun key => Receiver.configure (key.getD "") := by
    refine startWith_optional agrees begun ?_ fun value => ?_
    all_goals
      unfold Receiver.start
      rw [if_neg notMethod, named]
      rfl
  rw [start]
  refine Exec.ext fun d => ?_
  simp only [runInstructions, Exec.run_ofRun, ExceptT.run_bind_state, runRestConfiguration_run, Exec.run_ofExcept]
  cases Operand.evalOptional env.reach component with
  | error fault => rfl
  | ok key =>
    have configured : (Receiver.configure (key.getD "")).run.run d =
        (.ok (.configuration (key.getD "")), putDraft d (key.getD "") (draftOf d (key.getD ""))) := rfl
    simp only [Except.mapError_ok, configured, foldlM_callOn_configuration agrees said, draftOf_eq]
    generalize applyConfigurationCalls env.reach _ calls.reduceOption = outcome
    obtain ⟨draft, _ | _⟩ := outcome
    · rfl
    · rfl

end Definitions

/-- An expression that stands as a statement runs as its instruction, when calls of methods do. -/
theorem runExpression_eq (agrees : Agrees scope env locals) (methods : ∀ name, name ∈ env.methods ↔ scope.declares name)
    {call : String → Exec Unit} {callProgram : String → Run Unit}
    (calls : ∀ name ∈ scope.methods, call name = Exec.ofRun (callProgram name)) {e : Expression}
    {instruction : Instruction} (lowered : e.instruction scope = .done instruction) :
    runExpression env call locals e = Exec.ofRun (runInstructions env.reach callProgram [instruction]) := by
  obtain ⟨first, later, chained, lowered⟩ := Expression.instruction_eq_done lowered
  obtain ⟨_, ⟨args, member, rfl, rfl⟩ | ⟨notDeclared, defines⟩⟩ := lowerChain_eq_done lowered
  · have declared : first.name.name ∈ env.methods := (methods _).mpr (.inl member)
    rw [runExpression, calledName?_of_chainCalls chained args]
    simp only [Option.filter_some, declared, decide_true, if_true, calls _ member, runInstructions, bind_pure_unit]
  · have notMethod : first.name.name ∉ env.methods := fun member => notDeclared ((methods _).mp member)
    have noCall : (calledName? e).filter (· ∈ env.methods) = none := by
      cases called : calledName? e with
      | none => rfl
      | some name =>
        obtain ⟨other, single, _, rfl⟩ := calledName?_eq_some called
        obtain ⟨rfl, rfl⟩ := List.cons_eq_cons.mp (Except.ok.inj (chained.symm.trans single))
        simp [Option.filter, notMethod]
    obtain ⟨_, _, same, run⟩ := chain_eq env locals chained
    obtain ⟨rfl, rfl⟩ := List.cons_eq_cons.mp same
    rw [runExpression, noCall, run]
    obtain ⟨named, lowered⟩ | ⟨named, lowered⟩ | ⟨named, lowered⟩ := defines
    · exact run_route agrees callProgram named notMethod lowered
    · exact run_service agrees callProgram named notMethod lowered
    · exact run_configuration agrees callProgram named notMethod lowered

/-! ### Bodies -/

/-- What a name comes to after a declaration. -/
theorem localValue?_cons (name searched : String) (value : Option Expression) :
    env.localValue? ((name, value) :: locals) searched =
      if searched = name then some (value.elim (.error .meaningless) (env.eval locals))
      else env.localValue? locals searched := by
  cases value <;> rfl

theorem Agrees.cons (agrees : Agrees scope env locals) (name : String) {value : Option Expression}
    {operand : Option Operand}
    (means : ∀ initial, operand = some initial → ∃ e, value = some e ∧ env.eval locals e = valueOf env.reach initial) :
    Agrees { scope with locals := (name, operand) :: scope.locals } env ((name, value) :: locals) where
  fields := agrees.fields
  initialised := by
    intro searched initial found
    rw [lookup_cons_ite] at found
    rw [localValue?_cons]
    split at found
    · rename_i same
      obtain ⟨e, rfl, evaluated⟩ := means initial (Option.some.inj found)
      rw [if_pos same, ← evaluated]
      rfl
    · rename_i different
      rw [if_neg different, agrees.initialised searched initial found]
  undeclared := by
    intro searched absent
    rw [lookup_cons_ite] at absent
    rw [localValue?_cons]
    split at absent
    · cases absent
    · rename_i different
      rw [if_neg different, agrees.undeclared searched absent]

/-- Declaring a local variable keeps the agreement of a scope with an environment. -/
theorem Agrees.declare (agrees : Agrees scope env locals) {type : TypeName} {name : Ident} {value : Option Expression}
    {declared : List (String × Option Operand)} (lowered : lowerDeclaration scope type name value = .done declared) :
    Agrees { scope with locals := declared } env ((name.name, value) :: locals) := by
  obtain ⟨rfl, rfl⟩ | ⟨e, initial, rfl, done, rfl⟩ := lowerDeclaration_eq_done lowered
  · exact agrees.cons name.name nofun
  · refine agrees.cons name.name ?_
    rintro _ ⟨⟩
    exact ⟨e, rfl, agrees.eval done⟩

/-- Throwing directly is throwing by the instruction. -/
theorem raise_eq (agrees : Agrees scope env locals) {callProgram : String → Run Unit} {value : Expression} {span : Span}
    {instruction : Instruction} (lowered : lowerThrow scope value span = .done instruction) :
    raise env locals value =
      (do Exec.ofRun (runInstructions env.reach callProgram [instruction]); return none) := by
  obtain ⟨type, args, whole, rfl, ⟨rfl, rfl⟩ | ⟨arg, more, message, rfl, done, rfl⟩⟩ := lowerThrow_eq_done lowered
  · rfl
  · obtain ⟨operand, found, ⟨rfl, rfl⟩ | ⟨text, rfl⟩⟩ := exceptionMessage_eq_done_iff.mp done
    · simp only [raise, agrees.eval found, valueOf_const]
      rfl
    · simp only [raise, agrees.eval found, valueOf, runInstructions, Operand.evalOptional, Operand.eval_eq_str text]
      cases operand.evalText env.reach <;> rfl

/-- A direct run does what a lowered body does: it agrees on the local variables at its end, and a body that goes on
does not return. -/
structure RunsAs (scope : Scope) (env : Environment) (callProgram : String → Run Unit)
    (run : Exec (Option Locals)) (body : LoweredBody) (after : Locals) : Prop where
  agrees : Agrees { scope with locals := body.locals } env after
  run_eq : run = (do
    Exec.ofRun (runInstructions env.reach callProgram body.instructions)
    return if body.ends then none else some after)
  continues : body.ends = false → .return ∉ body.instructions

/-- An expression that stands as a statement does not return. -/
theorem return_ne_of_instruction {e : Expression} {instruction : Instruction}
    (lowered : e.instruction scope = .done instruction) : .return ≠ instruction := by
  obtain ⟨first, later, _, lowered⟩ := Expression.instruction_eq_done lowered
  obtain ⟨_, ⟨_, _, _, rfl⟩ | ⟨_, ⟨_, lowered⟩ | ⟨_, lowered⟩ | ⟨_, lowered⟩⟩⟩ := lowerChain_eq_done lowered
  · nofun
  · obtain ⟨_, _, _, _, rfl⟩ := lowerRoute_eq_done_iff.mp lowered
    nofun
  · obtain ⟨_, _, _, _, rfl⟩ := lowerRest_eq_done_iff.mp lowered
    nofun
  · obtain ⟨_, _, _, _, rfl⟩ := lowerRestConfiguration_eq_done_iff.mp lowered
    nofun

section Bodies

variable {call : String → Exec Unit} {callProgram : String → Run Unit}

mutual

theorem runsAs_statement {scope : Scope} {locals : Locals} (agrees : Agrees scope env locals)
    (methods : ∀ name, name ∈ env.methods ↔ scope.declares name)
    (calls : ∀ name ∈ scope.methods, call name = Exec.ofRun (callProgram name)) (s : Statement)
    (clean : (s.lower scope).faults = []) :
    ∃ after, RunsAs scope env callProgram (runStatement env call locals s) (s.lower scope) after := by
  cases s with
  | empty =>
    rw [Statement.lower]
    exact ⟨locals, agrees, rfl, by simp⟩
  | block body span =>
    rw [Statement.lower] at clean ⊢
    obtain ⟨after, inner⟩ := runsAs_statements agrees methods calls body clean
    -- What a block declares ends with it, so the local variables after it are those before it.
    refine ⟨locals, agrees, ?_, inner.continues⟩
    rw [runStatement, inner.run_eq]
    cases (lowerStatements scope body).ends <;> simp
  | «return» span =>
    rw [Statement.lower]
    exact ⟨locals, agrees, rfl, nofun⟩
  | throw value span =>
    rw [Statement.lower] at clean ⊢
    obtain ⟨i, lowered, same⟩ := LoweredBody.ofInstruction_eq_of_clean (explained_lowerThrow _ _ _) clean
    rw [same]
    exact ⟨locals, agrees, raise_eq agrees lowered, nofun⟩
  | expression e =>
    rw [Statement.lower] at clean ⊢
    obtain ⟨i, lowered, same⟩ := LoweredBody.ofInstruction_eq_of_clean (e.explained_instruction _) clean
    rw [same]
    refine ⟨locals, agrees, ?_, fun _ => by simp [return_ne_of_instruction lowered]⟩
    rw [runStatement, runExpression_eq agrees methods calls lowered]
    rfl
  | declare type name value =>
    rw [Statement.lower] at clean ⊢
    obtain ⟨declared, lowered⟩ := explained_lowerDeclaration scope type name value clean
    rw [lowered]
    exact ⟨_, agrees.declare lowered, rfl, by simp⟩

theorem runsAs_statements {scope : Scope} {locals : Locals} (agrees : Agrees scope env locals)
    (methods : ∀ name, name ∈ env.methods ↔ scope.declares name)
    (calls : ∀ name ∈ scope.methods, call name = Exec.ofRun (callProgram name)) (body : List Statement)
    (clean : (lowerStatements scope body).faults = []) :
    ∃ after, RunsAs scope env callProgram (runStatements env call locals body) (lowerStatements scope body) after := by
  cases body with
  | nil =>
    rw [lowerStatements]
    exact ⟨locals, agrees, rfl, by simp⟩
  | cons statement later =>
    cases ends : (statement.lower scope).ends with
    | true =>
      -- Only blanks follow a statement that ends the body, and the direct run does not come to them.
      have same := lowerStatements_cons_of_ends ends clean
      rw [same] at clean ⊢
      obtain ⟨after, first⟩ := runsAs_statement agrees methods calls statement clean
      refine ⟨after, first.agrees, ?_, first.continues⟩
      rw [runStatements, first.run_eq]
      simp [ends]
    | false =>
      rw [lowerStatements_cons_of_continues ends] at clean ⊢
      obtain ⟨firstClean, laterClean⟩ := List.append_eq_nil_iff.mp clean
      obtain ⟨between, first⟩ := runsAs_statement agrees methods calls statement firstClean
      obtain ⟨after, rest⟩ := runsAs_statements first.agrees methods calls later laterClean
      refine ⟨after, rest.agrees, ?_, fun goesOn => ?_⟩
      · rw [runStatements, first.run_eq, runInstructions_append (first.continues ends)]
        simp [ends, rest.run_eq]
      · exact List.mem_append.not.mpr (not_or.mpr ⟨first.continues ends, rest.continues goesOn⟩)

end

end Bodies

end RouteDepot.RouteClass.Direct
