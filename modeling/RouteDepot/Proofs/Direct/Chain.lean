import RouteDepot.Proofs.Direct.Expression
import RouteDepot.Proofs.Lowering.Body
import RouteDepot.Proofs.Lowering.Call

/-! # Chains mean their instructions

A chain that is run call by call builds the definition that its instruction builds. The calls of a route are taken
with the clauses that complete them; what a failing chain of a REST configuration leaves behind is the same.
-/

namespace RouteDepot.RouteClass.Direct

open Operand (Reach)

variable {scope : Scope} {env : Environment} {locals : Locals}

/-! ### Arguments -/

theorem language?_of_clauseLanguage? {name : String} {language : ClauseLanguage} {accepted : List ValueType}
    (found : clauseLanguage? name = some (language, accepted)) : language? name = some language := by
  unfold clauseLanguage? at found
  split at found <;> cases found <;> rfl

namespace Agrees

/-- An argument that has an operand is a value. -/
theorem argument (agrees : Agrees scope env locals) {arg : Expression} {accepted : List ValueType} {operand : Operand}
    (gives : scope.Gives arg accepted operand) : env.argument locals arg = .value <$> valueOf env.reach operand := by
  rw [← agrees.eval gives.lowered]
  unfold Environment.argument
  split
  · exact absurd gives.lowered (by simp [Expression.operand])
  · rfl

theorem arguments_single (agrees : Agrees scope env locals) {arg : Expression} {accepted : List ValueType}
    {operand : Operand} (gives : scope.Gives arg accepted operand) :
    env.arguments locals [arg] = (fun value => [.value value]) <$> valueOf env.reach operand := by
  simp only [Environment.arguments, List.mapM_cons, List.mapM_nil, agrees.argument gives]
  cases valueOf env.reach operand <;> rfl

/-- The texts of arguments are those of their operands. -/
theorem arguments_texts (agrees : Agrees scope env locals) {args : List Expression} {accepted : List ValueType}
    {operands : List Operand}
    (gives : List.Forall₂ (fun arg operand => scope.Gives arg accepted operand) args operands) :
    (do (← env.arguments locals args).mapM Argument.text) =
      (Operand.evalTexts env.reach operands).mapError .failed := by
  induction gives with
  | nil => rfl
  | @cons arg operand args operands first _ ih =>
    unfold Environment.arguments at ih ⊢
    simp only [List.mapM_cons, agrees.argument first, valueOf, Operand.evalTexts]
    cases operand.eval env.reach with
    | error fault => rfl
    | ok value =>
      simp only [Except.mapError_ok, Except.map_ok, Except.bind_ok, Except.mapError_bind, ← ih]
      cases args.mapM (env.argument locals) with
      | error halt => rfl
      | ok arguments => cases texts : arguments.mapM Argument.text <;> simp [List.mapM_cons, Argument.text, texts]

/-- The call of a clause that follows. -/
theorem arguments_clause (agrees : Agrees scope env locals) {call : ChainCall} {clause : ClauseOperand}
    (made : call.MakesClause scope clause) :
    language? call.name.name = some clause.language ∧
      env.arguments locals call.args = (fun value => [.value value]) <$> valueOf env.reach clause.text := by
  obtain ⟨language, args, gives⟩ := made
  rw [args]
  exact ⟨language?_of_clauseLanguage? language, agrees.arguments_single gives⟩

/-- A clause as an argument. -/
theorem argument_clause (agrees : Agrees scope env locals) {callee : Ident} {args : List Expression} {span : Span}
    {clause : ClauseOperand} (made : ChainCall.MakesClause ⟨callee, args, span⟩ scope clause) :
    env.argument locals (.call callee args span) = .clause <$> (clause.eval env.reach).mapError .failed := by
  obtain @⟨_, _, arg, text, language, rfl, gives⟩ := made
  simp only [Environment.argument, language?_of_clauseLanguage? language, agrees.eval gives.lowered, ClauseOperand.eval,
    valueOf, Operand.evalText]
  cases text.eval env.reach <;> rfl

end Agrees

/-! ### Routes -/

/-- A truth value is read in the same way. -/
theorem flag_eq (value : Value) : flag value = (autoStartupFlag value).mapError .failed := by
  cases value with
  | bool given => cases given <;> rfl
  | str _ | int _ | null =>
    simp only [flag, autoStartupFlag]
    generalize (Text.trimList _).map Char.toLower = word
    by_cases yes : word = ['t', 'r', 'u', 'e']
    · subst yes
      rfl
    · by_cases no : word = ['f', 'a', 'l', 's', 'e']
      · subst no
        rfl
      · have notTrue : String.ofList word ≠ "true" := fun same => yes (by simpa using congrArg String.toList same)
        have notFalse : String.ofList word ≠ "false" := fun same => no (by simpa using congrArg String.toList same)
        simp [List.find?, Value.display, yes, no]

/-- A call of a chain on a route. -/
def stepRoute (env : Environment) (locals : Locals) (state : Route × Option Waiting) (call : ChainCall) :
    Except Halt (Route × Option Waiting) := do
  callRoute state.1 state.2 call.name.name (← env.arguments locals call.args)

/-- A call that waits takes the clause that follows it. -/
theorem stepRoute_clause (agrees : Agrees scope env locals) {call : ChainCall} {clause : ClauseOperand}
    (made : call.MakesClause scope clause) (route : Route) (waiting : Waiting) :
    stepRoute env locals (route, some waiting) call =
      (fun clause => (addSteps route [waiting.step clause], none)) <$>
        (clause.eval env.reach).mapError .failed := by
  obtain ⟨language, arguments⟩ := agrees.arguments_clause made
  simp only [stepRoute, arguments, valueOf, ClauseOperand.eval, Operand.evalText]
  cases clause.text.eval env.reach with
  | error fault => rfl
  | ok value => simp [callRoute, language]

/-- A call that takes nothing but a clause takes the one that follows, or the one that it is given. -/
theorem stepRoute_onlyClause (agrees : Agrees scope env locals) (waiting : Waiting) (route : Route)
    {call : ChainCall} {next : Option ChainCall} {clause : ClauseOperand}
    (ends : ChainCall.EndsWithClause scope call.args next clause) (paired : call.args ≠ [] → next = none)
    (waits : callRoute route none call.name.name [] = .ok (route, some waiting))
    (takes : ∀ clause, callRoute route none call.name.name [.clause clause] =
      .ok (addSteps route [waiting.step clause], none)) :
    (call :: next.toList).foldlM (stepRoute env locals) (route, none) =
      (fun clause => (addSteps route [waiting.step clause], none)) <$>
        (clause.eval env.reach).mapError .failed := by
  obtain ⟨args, rfl, made⟩ | ⟨args, made⟩ := ends
  · have first : stepRoute env locals (route, none) call = .ok (route, some waiting) := by
      simp [stepRoute, args, Environment.arguments, waits]
    rw [Option.toList_some, List.foldlM_cons, first, Except.bind_ok, List.foldlM_cons,
      stepRoute_clause agrees made]
    cases (clause.eval env.reach).mapError Halt.failed <;> rfl
  · obtain rfl := paired (by simp [args])
    simp only [Option.toList_none, List.foldlM_cons, List.foldlM_nil, stepRoute, args, Environment.arguments,
      List.mapM_cons, List.mapM_nil, agrees.argument_clause made]
    cases (clause.eval env.reach).mapError Halt.failed with
    | error halt => rfl
    | ok clause => exact congrArg (· >>= pure) (takes clause)

/-- A call that sets a header evaluates its name first, and then takes its clause. -/
theorem stepRoute_headerClause (agrees : Agrees scope env locals) {call : ChainCall} {next : Option ChainCall}
    {arg : Expression} {rest : List Expression} {header : Operand} {clause : ClauseOperand}
    (named : call.name.name = "setHeader") (args : call.args = arg :: rest) (gives : scope.Gives arg [.str] header)
    (ends : ChainCall.EndsWithClause scope rest next clause) (paired : rest ≠ [] → next = none) (route : Route) :
    (call :: next.toList).foldlM (stepRoute env locals) (route, none) = do
      let name ← (header.evalText env.reach).mapError .failed
      let clause ← (clause.eval env.reach).mapError .failed
      return (addSteps route [.setHeader name clause], none) := by
  obtain @⟨follower, _, rfl, rfl, made⟩ | ⟨rfl, made⟩ := ends
  · simp only [Option.toList_some, List.foldlM_cons, List.foldlM_nil, stepRoute.eq_1 env locals (route, none), args,
      named, agrees.arguments_single gives, valueOf, Operand.evalText]
    cases header.eval env.reach with
    | error fault => rfl
    | ok name =>
      change stepRoute env locals (route, some (.setHeader name.display)) follower >>= _ = _
      rw [stepRoute_clause agrees made]
      cases (clause.eval env.reach).mapError Halt.failed <;> rfl
  · obtain rfl := paired (by simp)
    simp only [Option.toList_none, List.foldlM_cons, List.foldlM_nil, stepRoute, args, named, Environment.arguments,
      List.mapM_cons, List.mapM_nil, agrees.argument gives, agrees.argument_clause made, valueOf, Operand.evalText]
    cases header.eval env.reach with
    | error fault => rfl
    | ok name => cases (clause.eval env.reach).mapError Halt.failed <;> rfl

/-- A call with the clause that follows it, if it takes one, changes a route as what it is lowered to. -/
theorem stepRoute_eq (agrees : Agrees scope env locals) {call : ChainCall} {next : Option ChainCall}
    {result : Option RouteCall} (lowered : call.routeCall scope next = .done result)
    (paired : next.isSome → call.takesNext) (route : Route) :
    (call :: next.toList).foldlM (stepRoute env locals) (route, none) =
      (fun route => (route, none)) <$>
        (result.toList.foldlM (RouteCall.apply env.reach) route).mapError .failed := by
  have nextless (takesNone : ¬ call.takesNext) : next = none := by
    cases next with
    | none => rfl
    | some next => exact absurd (paired rfl) takesNone
  cases ChainCall.saysOfRoute_of_routeCall lowered with
  | @routeId _ operand named args gives | @description _ operand named args gives
  | @sendDynamic _ operand named args gives | @log _ operand named args gives
  | @removeHeader _ operand named args gives =>
    obtain rfl := nextless (by simp [ChainCall.takesNext, named])
    simp only [Option.toList_none, Option.toList_some, List.foldlM_cons, List.foldlM_nil, stepRoute, args, named,
      agrees.arguments_single gives, valueOf, RouteCall.apply, Operand.evalText]
    cases operand.eval env.reach <;> rfl
  | @autoStartup _ operand named args gives =>
    obtain rfl := nextless (by simp [ChainCall.takesNext, named])
    simp only [Option.toList_none, Option.toList_some, List.foldlM_cons, List.foldlM_nil, stepRoute, args, named,
      agrees.arguments_single gives, valueOf, RouteCall.apply]
    cases operand.eval env.reach with
    | error fault => rfl
    | ok value =>
      simp only [Except.mapError_ok, Except.map_ok, Except.bind_ok, callRoute, flag_eq]
      cases autoStartupFlag value <;> rfl
  | @send operands named gives =>
    obtain rfl := nextless (by simp [ChainCall.takesNext, named])
    have sent : stepRoute env locals (route, none) call =
        (fun uris => (addSteps route (uris.map .send), none)) <$>
          (do (← env.arguments locals call.args).mapM Argument.text) := by
      simp only [stepRoute, named]
      cases env.arguments locals call.args <;> rfl
    simp only [Option.toList_none, Option.toList_some, List.foldlM_cons, List.foldlM_nil, sent,
      agrees.arguments_texts gives, RouteCall.apply]
    cases Operand.evalTexts env.reach operands <;> rfl
  | @setBody clause named ends | @transform clause named ends | @filter clause named ends =>
    have paired (given : call.args ≠ []) : next = none := nextless (by simp [ChainCall.takesNext, named, given])
    rw [stepRoute_onlyClause agrees _ route ends paired (by rw [named]; rfl) (by rw [named]; exact fun _ => rfl)]
    simp only [Option.toList_some, List.foldlM_cons, List.foldlM_nil, RouteCall.apply]
    cases clause.eval env.reach <;> rfl
  | @setHeader arg rest header clause named args gives ends =>
    have paired (given : rest ≠ []) : next = none := nextless (by simp [ChainCall.takesNext, named, args, given])
    rw [stepRoute_headerClause agrees named args gives ends paired]
    simp only [Option.toList_some, List.foldlM_cons, List.foldlM_nil, RouteCall.apply]
    cases header.evalText env.reach with
    | error fault => rfl
    | ok name => cases clause.eval env.reach <;> rfl
  | «end» named args =>
    obtain rfl := nextless (by simp [ChainCall.takesNext, named])
    simp only [Option.toList_none, List.foldlM_cons, List.foldlM_nil, stepRoute, args, named]
    rfl

/-- Taken with the clauses that complete them, the calls of a chain are all there, in order. -/
theorem flatMap_withClauses (calls : List ChainCall) :
    (withClauses calls).flatMap (fun pair => pair.1 :: pair.2.toList) = calls := by
  fun_induction withClauses calls with
  | case1 => rfl
  | case2 => rfl
  | case3 call next later _ ih => simp [ih]
  | case4 call next later _ ih => simp [ih]

theorem takesNext_of_withClauses {calls : List ChainCall} :
    ∀ pair ∈ withClauses calls, pair.2.isSome → pair.1.takesNext := by
  fun_induction withClauses calls with
  | case1 => simp
  | case2 => simp
  | case3 call next later takes ih => exact List.forall_mem_cons.mpr ⟨fun _ => takes, ih⟩
  | case4 call next later _ ih => exact List.forall_mem_cons.mpr ⟨nofun, ih⟩

theorem reduceOption_cons {α : Type} (first : Option α) (later : List (Option α)) :
    (first :: later).reduceOption = first.toList ++ later.reduceOption := by
  cases first <;> rfl

theorem foldlM_stepRoute_pairs (agrees : Agrees scope env locals) {pairs : List (ChainCall × Option ChainCall)}
    {results : List (Option RouteCall)}
    (lowered : List.Forall₂ (fun pair result => pair.1.routeCall scope pair.2 = .done result) pairs results)
    (paired : ∀ pair ∈ pairs, pair.2.isSome → pair.1.takesNext) (route : Route) :
    (pairs.flatMap fun pair => pair.1 :: pair.2.toList).foldlM (stepRoute env locals) (route, none) =
      (fun route => (route, none)) <$>
        (results.reduceOption.foldlM (RouteCall.apply env.reach) route).mapError .failed := by
  induction lowered generalizing route with
  | nil => rfl
  | @cons pair result pairs results first _ ih =>
    obtain ⟨pairedFirst, pairedLater⟩ := List.forall_mem_cons.mp paired
    rw [List.flatMap_cons, List.foldlM_append, stepRoute_eq agrees first pairedFirst, reduceOption_cons,
      List.foldlM_append]
    cases result.toList.foldlM (RouteCall.apply env.reach) route with
    | error fault => rfl
    | ok next => exact ih pairedLater next

/-- The calls of a route, one after another, change it as the calls that they are lowered to. -/
theorem foldlM_stepRoute (agrees : Agrees scope env locals) {calls : List ChainCall}
    {results : List (Option RouteCall)}
    (lowered : List.Forall₂ (fun pair result => pair.1.routeCall scope pair.2 = .done result)
      (withClauses calls) results) (route : Route) :
    calls.foldlM (stepRoute env locals) (route, none) =
      (fun route => (route, none)) <$>
        (results.reduceOption.foldlM (RouteCall.apply env.reach) route).mapError .failed := by
  have same := foldlM_stepRoute_pairs agrees lowered takesNext_of_withClauses route
  rwa [flatMap_withClauses] at same

/-! ### Services -/

/-- What is said about the last verb, or about the service before its first verb, is said about the subject. -/
theorem changeLast_whole (subject : Subject) (changeVerb : Verb → Verb) (changeService : RestService → RestService) :
    changeLast subject.whole changeVerb changeService =
      match subject with
      | .service s _ => changeService s
      | .verb s v => { s with verbs := s.verbs ++ [changeVerb v] } := by
  cases subject with
  | service s unused => simp [Subject.whole, changeLast, unused]
  | verb s v => simp [Subject.whole, changeLast]

/-- A call of a chain on a service. -/
def stepService (env : Environment) (locals : Locals) (subject : Subject) (call : ChainCall) : Except Halt Subject := do
  callService subject call.name.name (← env.arguments locals call.args)

theorem stepService_eq (agrees : Agrees scope env locals) {call : ChainCall} {result : Option RestCall}
    (lowered : call.restCall scope = .done result) (subject : Subject) :
    Subject.whole <$> stepService env locals subject call =
      (result.toList.foldlM (RestCall.apply env.reach) subject.whole).mapError .failed := by
  cases ChainCall.saysOfService_of_restCall lowered with
  | @verb method verb args =>
    simp only [Option.toList_some, List.foldlM_cons, List.foldlM_nil, stepService, args]
    simp [Environment.arguments, callService, verb, RestCall.apply, Operand.evalOptional, Subject.whole]
  | @verbAt method arg operand verb args gives =>
    simp only [Option.toList_some, List.foldlM_cons, List.foldlM_nil, stepService, args, agrees.arguments_single gives,
      RestCall.apply, Operand.evalOptional, valueOf, Operand.evalText]
    cases operand.eval env.reach with
    | error fault => rfl
    | ok value => simp [callService, verb, Subject.whole]
  | @description arg operand named args gives | @consumes arg operand named args gives
  | @produces arg operand named args gives =>
    simp only [Option.toList_some, List.foldlM_cons, List.foldlM_nil, stepService, args, agrees.arguments_single gives,
      RestCall.apply, valueOf, Operand.evalText, named, changeLast_whole]
    cases operand.eval env.reach with
    | error fault => rfl
    | ok value => cases subject <;> rfl
  | @send arg operand named args gives =>
    simp only [Option.toList_some, List.foldlM_cons, List.foldlM_nil, stepService, args, agrees.arguments_single gives,
      RestCall.apply, valueOf, Operand.evalText, named, changeLast_whole]
    cases operand.eval env.reach with
    | error fault => rfl
    | ok value =>
      cases subject with
      | service s unused =>
        have refused : callService (.service s unused) "to" [.value value] =
            .error (.failed (.misused (.targetWithoutVerb value.display))) := rfl
        simp [refused, Subject.whole, unused]
        rfl
      | verb s v =>
        have sent : callService (.verb s v) "to" [.value value] =
            .ok (.verb s { v with target := some value.display }) := rfl
        simp [sent, Subject.whole]
  | «end» named args =>
    simp only [Option.toList_none, List.foldlM_nil, stepService, args, named]
    rfl

/-- The calls of a service, one after another, change it as the calls that they are lowered to. -/
theorem foldlM_stepService (agrees : Agrees scope env locals) {calls : List ChainCall}
    {results : List (Option RestCall)}
    (lowered : List.Forall₂ (fun call result => call.restCall scope = .done result) calls results)
    (subject : Subject) :
    Subject.whole <$> calls.foldlM (stepService env locals) subject =
      (results.reduceOption.foldlM (RestCall.apply env.reach) subject.whole).mapError .failed := by
  induction lowered generalizing subject with
  | nil => rfl
  | @cons call result calls results first _ ih =>
    rw [List.foldlM_cons, reduceOption_cons, List.foldlM_append, Except.mapError_bind, ← stepService_eq agrees first,
      map_bind, bind_map_left]
    exact bind_congr ih

/-! ### Configurations -/

/-- A call of a chain on the draft of a REST configuration. -/
def stepConfiguration (env : Environment) (locals : Locals) (draft : RestConfigurationDraft) (call : ChainCall) :
    Except Halt RestConfigurationDraft := do
  callConfiguration draft call.name.name (← env.arguments locals call.args)

/-- An option is set by the call that has its name. -/
theorem callConfiguration_option {name : String} {option : RestOption} {accepted : List ValueType}
    (found : restOption? name = some (option, accepted)) (draft : RestConfigurationDraft) (value : Value) :
    callConfiguration draft name [.value value] = .ok (option.set draft value.display) := by
  unfold restOption? at found
  split at found <;> cases found <;> rfl

theorem callConfiguration_property {name : String} {group : RestPropertyGroup}
    (found : restPropertyGroup? name = some group) (draft : RestConfigurationDraft) (key value : Value) :
    callConfiguration draft name [.value key, .value value] = .ok (group.set draft key.display value.display) := by
  unfold restPropertyGroup? at found
  split at found <;> cases found <;> rfl

theorem stepConfiguration_eq (agrees : Agrees scope env locals) {call : ChainCall} {result : Option ConfigurationCall}
    (lowered : call.configurationCall scope = .done result) (draft : RestConfigurationDraft) :
    stepConfiguration env locals draft call =
      (result.toList.foldlM (ConfigurationCall.apply env.reach) draft).mapError .failed := by
  cases ChainCall.saysOfConfiguration_of_configurationCall lowered with
  | @set option accepted arg operand found args gives =>
    simp only [Option.toList_some, List.foldlM_cons, List.foldlM_nil, stepConfiguration, args,
      agrees.arguments_single gives, ConfigurationCall.apply, valueOf, Operand.evalText]
    cases operand.eval env.reach with
    | error fault => rfl
    | ok value => exact callConfiguration_option found draft value
  | @property group key value first second found args firstGives secondGives =>
    simp only [Option.toList_some, List.foldlM_cons, List.foldlM_nil, stepConfiguration, args, Environment.arguments,
      List.mapM_cons, List.mapM_nil, agrees.argument firstGives, agrees.argument secondGives, ConfigurationCall.apply,
      valueOf, Operand.evalText]
    cases first.eval env.reach with
    | error fault => rfl
    | ok key =>
      cases second.eval env.reach with
      | error fault => rfl
      | ok value => exact callConfiguration_property found draft key value
  | «end» named args =>
    simp only [Option.toList_none, List.foldlM_nil, stepConfiguration, args, named]
    rfl

end RouteDepot.RouteClass.Direct
