import RouteDepot.Proofs.Lowering.Chain

/-! # Calls of definitions

What a call says about a route, about a REST service or about a REST configuration when it is lowered without faults:
its name, its arguments, and the operands that they have. The call `end` says nothing.
-/

namespace RouteDepot.RouteClass

namespace ChainCall

variable {call : ChainCall} {scope : Scope}

/-- What a call says about a route, perhaps together with the call that follows it. -/
inductive SaysOfRoute (call : ChainCall) (scope : Scope) (next : Option ChainCall) : Option RouteCall → Prop
  | routeId {arg operand} : call.name.name = "routeId" → call.args = [arg] → scope.Gives arg [.str] operand →
      SaysOfRoute call scope next (some (.routeId operand))
  | description {arg operand} : call.name.name = "description" → call.args = [arg] →
      scope.Gives arg [.str] operand → SaysOfRoute call scope next (some (.description operand))
  | autoStartup {arg operand} : call.name.name = "autoStartup" → call.args = [arg] →
      scope.Gives arg [.bool, .str] operand → SaysOfRoute call scope next (some (.autoStartup operand))
  | send {operands} : call.name.name = "to" →
      List.Forall₂ (fun arg operand => scope.Gives arg [.str] operand) call.args operands →
      SaysOfRoute call scope next (some (.send operands))
  | sendDynamic {arg operand} : call.name.name = "toD" → call.args = [arg] → scope.Gives arg [.str] operand →
      SaysOfRoute call scope next (some (.sendDynamic operand))
  | log {arg operand} : call.name.name = "log" → call.args = [arg] → scope.Gives arg [.str] operand →
      SaysOfRoute call scope next (some (.log operand))
  | removeHeader {arg operand} : call.name.name = "removeHeader" → call.args = [arg] →
      scope.Gives arg [.str] operand → SaysOfRoute call scope next (some (.removeHeader operand))
  | setBody {clause} : call.name.name = "setBody" → EndsWithClause scope call.args next clause →
      SaysOfRoute call scope next (some (.setBody clause))
  | transform {clause} : call.name.name = "transform" → EndsWithClause scope call.args next clause →
      SaysOfRoute call scope next (some (.transform clause))
  | filter {clause} : call.name.name = "filter" → EndsWithClause scope call.args next clause →
      SaysOfRoute call scope next (some (.filter clause))
  | setHeader {arg rest header clause} : call.name.name = "setHeader" → call.args = arg :: rest →
      scope.Gives arg [.str] header → EndsWithClause scope rest next clause →
      SaysOfRoute call scope next (some (.setHeader header clause))
  | «end» : call.name.name = "end" → call.args = [] → SaysOfRoute call scope next none

theorem saysOfRoute_of_routeCall {next : Option ChainCall} {result : Option RouteCall}
    (lowered : call.routeCall scope next = .done result) : call.SaysOfRoute scope next result := by
  unfold routeCall at lowered
  split at lowered
  all_goals rename_i named
  any_goals simp only [Lowered.map_eq_done_iff, single_eq_done_iff, exists_exists_and_eq_and] at lowered
  · obtain ⟨operand, ⟨arg, args, gives⟩, rfl⟩ := lowered
    exact .routeId named args gives
  · obtain ⟨operand, ⟨arg, args, gives⟩, rfl⟩ := lowered
    exact .description named args gives
  · obtain ⟨operand, ⟨arg, args, gives⟩, rfl⟩ := lowered
    exact .autoStartup named args gives
  · obtain ⟨operands, done, rfl⟩ := lowered
    exact .send named (texts_eq_done_iff.mp done).2
  · obtain ⟨operand, ⟨arg, args, gives⟩, rfl⟩ := lowered
    exact .sendDynamic named args gives
  · obtain ⟨operand, ⟨arg, args, gives⟩, rfl⟩ := lowered
    exact .log named args gives
  · obtain ⟨operand, ⟨arg, args, gives⟩, rfl⟩ := lowered
    exact .removeHeader named args gives
  · obtain ⟨clause, done, rfl⟩ := lowered
    exact .setBody named (onlyClause_eq_done_iff.mp done)
  · obtain ⟨clause, done, rfl⟩ := lowered
    exact .transform named (onlyClause_eq_done_iff.mp done)
  · obtain ⟨clause, done, rfl⟩ := lowered
    exact .filter named (onlyClause_eq_done_iff.mp done)
  · obtain ⟨⟨header, clause⟩, done, rfl⟩ := lowered
    obtain ⟨arg, rest, args, gives, ends⟩ := headerClause_eq_done_iff.mp done
    exact .setHeader named args gives ends
  · obtain ⟨args, rfl⟩ := close_eq_done_iff.mp lowered
    exact .end named args
  · exact absurd lowered Lowered.fail_ne_done

/-- What a call says about a REST service. -/
inductive SaysOfService (call : ChainCall) (scope : Scope) : Option RestCall → Prop
  | verb {method} : HttpMethod.ofCall? call.name.name = some method → call.args = [] →
      SaysOfService call scope (some (.verb method none))
  | verbAt {method arg operand} : HttpMethod.ofCall? call.name.name = some method → call.args = [arg] →
      scope.Gives arg [.str] operand → SaysOfService call scope (some (.verb method (some operand)))
  | description {arg operand} : call.name.name = "description" → call.args = [arg] →
      scope.Gives arg [.str] operand → SaysOfService call scope (some (.description operand))
  | consumes {arg operand} : call.name.name = "consumes" → call.args = [arg] →
      scope.Gives arg [.str] operand → SaysOfService call scope (some (.consumes operand))
  | produces {arg operand} : call.name.name = "produces" → call.args = [arg] →
      scope.Gives arg [.str] operand → SaysOfService call scope (some (.produces operand))
  | send {arg operand} : call.name.name = "to" → call.args = [arg] →
      scope.Gives arg [.str] operand → SaysOfService call scope (some (.send operand))
  | «end» : call.name.name = "end" → call.args = [] → SaysOfService call scope none

theorem saysOfService_of_restCall {result : Option RestCall} (lowered : call.restCall scope = .done result) :
    call.SaysOfService scope result := by
  unfold restCall at lowered
  split at lowered
  · rename_i method verb
    simp only [Lowered.map_eq_done_iff, exists_exists_and_eq_and] at lowered
    obtain ⟨uri, done, rfl⟩ := lowered
    obtain ⟨args, rfl⟩ | ⟨arg, operand, args, rfl, gives⟩ := optional_eq_done_iff.mp done
    · exact .verb verb args
    · exact .verbAt verb args gives
  · split at lowered
    all_goals rename_i named
    any_goals simp only [Lowered.map_eq_done_iff, single_eq_done_iff, exists_exists_and_eq_and] at lowered
    · obtain ⟨operand, ⟨arg, args, gives⟩, rfl⟩ := lowered
      exact .description named args gives
    · obtain ⟨operand, ⟨arg, args, gives⟩, rfl⟩ := lowered
      exact .consumes named args gives
    · obtain ⟨operand, ⟨arg, args, gives⟩, rfl⟩ := lowered
      exact .produces named args gives
    · obtain ⟨operand, ⟨arg, args, gives⟩, rfl⟩ := lowered
      exact .send named args gives
    · obtain ⟨args, rfl⟩ := close_eq_done_iff.mp lowered
      exact .end named args
    · exact absurd lowered Lowered.fail_ne_done

/-- What a call says about a REST configuration. -/
inductive SaysOfConfiguration (call : ChainCall) (scope : Scope) : Option ConfigurationCall → Prop
  | set {option accepted arg operand} : restOption? call.name.name = some (option, accepted) → call.args = [arg] →
      scope.Gives arg accepted operand → SaysOfConfiguration call scope (some (.set option operand))
  | property {group key value first second} : restPropertyGroup? call.name.name = some group →
      call.args = [key, value] → scope.Gives key [.str] first → scope.Gives value [.str] second →
      SaysOfConfiguration call scope (some (.property group first second))
  | «end» : call.name.name = "end" → call.args = [] → SaysOfConfiguration call scope none

theorem saysOfConfiguration_of_configurationCall {result : Option ConfigurationCall}
    (lowered : call.configurationCall scope = .done result) : call.SaysOfConfiguration scope result := by
  unfold configurationCall at lowered
  split at lowered
  · rename_i option accepted found
    simp only [Lowered.map_eq_done_iff, single_eq_done_iff, exists_exists_and_eq_and] at lowered
    obtain ⟨operand, ⟨arg, args, gives⟩, rfl⟩ := lowered
    exact .set found args gives
  · rename_i group _ found
    obtain ⟨⟨first, second⟩, done, rfl⟩ := Lowered.map_eq_done_iff.mp lowered
    obtain ⟨key, value, args, keyGives, valueGives⟩ := textPair_eq_done_iff.mp done
    exact .property found args keyGives valueGives
  · split at lowered
    · rename_i named
      obtain ⟨args, rfl⟩ := close_eq_done_iff.mp lowered
      exact .end named args
    · exact absurd lowered Lowered.fail_ne_done

end ChainCall

end RouteDepot.RouteClass
