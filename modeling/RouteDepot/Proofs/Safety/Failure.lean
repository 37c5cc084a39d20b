import RouteDepot.Proofs.Safety.Arguments
import RouteDepot.Proofs.Running

/-! # Why instructions fail

A run of sound instructions fails only at an instruction that it has reached, and only for one of five reasons: the
instruction throws, a placeholder in one of its arguments does not resolve, too many calls are open, a route is given
a text that is no truth value, or a service is given a target before its first verb.
-/

namespace RouteDepot.RouteClass

open Operand (Reach evalOptional evalTexts)

/-! ### Operands -/

/-- The error of a placeholder that does not resolve. -/
def Unresolved (properties : Properties) (error : ConfigureError) : Prop :=
  ∃ text fault, properties.resolve text = .error fault ∧ error = .raised placeholderException fault.message

theorem unresolved_of_resolveText {properties : Properties} {text : String} {error : ConfigureError}
    (failed : Operand.resolveText (some properties) text = .error error) : Unresolved properties error := by
  unfold Operand.resolveText at failed
  simp only at failed
  split at failed
  · cases failed
  · rename_i fault unresolved
    exact ⟨text, fault, unresolved, (Except.error.inj failed).symm⟩

namespace Operand

variable {properties : Properties} {error : ConfigureError}

/-- Operands have texts unless one of them has no value. -/
theorem exists_of_evalTexts_eq_error {operands : List Operand}
    (failed : evalTexts (some properties) operands = .error error) :
    ∃ operand ∈ operands, operand.eval (some properties) = .error error := by
  induction operands with
  | nil => cases failed
  | cons operand later ih =>
    obtain first | ⟨_, _, failed⟩ := Except.bind_eq_error_iff.mp failed
    · exact ⟨operand, List.mem_cons_self, first⟩
    · obtain ⟨other, member, failed⟩ := ih (Except.eq_error_of_bind_pure failed)
      exact ⟨other, List.mem_cons_of_mem _ member, failed⟩

/-- With a context bound, an operand has a value unless one of its placeholders does not resolve. -/
theorem unresolved_of_eval (operand : Operand) (failed : operand.eval (some properties) = .error error) :
    Unresolved properties error := by
  match operand with
  | .const value => cases failed
  | .placeholders text =>
    obtain inner | ⟨value, _, failed⟩ := Except.bind_eq_error_iff.mp failed
    · exact unresolved_of_eval text inner
    · have unresolved := Except.eq_error_of_bind_pure failed
      exact unresolved_of_resolveText unresolved
  | .concat parts =>
    have inner := Except.eq_error_of_bind_pure failed
    obtain ⟨part, member, failed⟩ := exists_of_evalTexts_eq_error inner
    exact unresolved_of_eval part failed
termination_by operand

end Operand

/-! ### Calls -/

/-- An argument whose placeholders do not resolve. -/
def ArgumentFails (properties : Properties) (arguments : List (Operand × List ValueType)) (error : ConfigureError) :
    Prop :=
  ∃ argument ∈ arguments, argument.1.eval (some properties) = .error error

variable {properties : Properties} {error : ConfigureError}

theorem ArgumentFails.mono {some more : List (Operand × List ValueType)} (fails : ArgumentFails properties some error)
    (subset : some ⊆ more) : ArgumentFails properties more error := by
  obtain ⟨argument, member, failed⟩ := fails
  exact ⟨argument, subset member, failed⟩

theorem argumentFails_of_evalText {operand : Operand} {accepted : List ValueType}
    (failed : operand.evalText (some properties) = .error error) :
    ArgumentFails properties [(operand, accepted)] error :=
  ⟨_, List.mem_singleton_self _, Except.map_eq_error_iff.mp failed⟩

theorem argumentFails_of_evalOptional {operand? : Option Operand} {accepted : List ValueType}
    (failed : evalOptional (some properties) operand? = .error error) :
    ArgumentFails properties (operand?.toList.map (·, accepted)) error := by
  cases operand? with
  | none => cases failed
  | some operand => exact argumentFails_of_evalText (Except.map_eq_error_iff.mp failed)

theorem argumentFails_of_evalTexts {operands : List Operand} {accepted : List ValueType}
    (failed : evalTexts (some properties) operands = .error error) :
    ArgumentFails properties (operands.map (·, accepted)) error := by
  obtain ⟨operand, member, failed⟩ := Operand.exists_of_evalTexts_eq_error failed
  exact ⟨_, List.mem_map_of_mem member, failed⟩

theorem argumentFails_of_clause {clause : ClauseOperand} (failed : clause.eval (some properties) = .error error) :
    ArgumentFails properties [clause.argument] error := by
  have inner := Except.eq_error_of_bind_pure failed
  exact argumentFails_of_evalText inner

/-- A call on a route fails by one of its arguments, or because a text is no truth value. -/
theorem RouteCall.fails_of_apply {call : RouteCall} {route : Route}
    (failed : call.apply (some properties) route = .error error) :
    ArgumentFails properties call.arguments error ∨
      ∃ flag value, call = .autoStartup flag ∧ flag.eval (some properties) = .ok value ∧
        autoStartupFlag value = .error error := by
  cases call with
  | routeId text | description text | sendDynamic text | log text | removeHeader text =>
    have inner := Except.eq_error_of_bind_pure failed
    exact .inl (argumentFails_of_evalText inner)
  | autoStartup flag =>
    obtain inner | ⟨value, evaluated, failed⟩ := Except.bind_eq_error_iff.mp failed
    · exact .inl ⟨_, List.mem_singleton_self _, inner⟩
    · have unsuitable := Except.eq_error_of_bind_pure failed
      exact .inr ⟨flag, value, rfl, evaluated, unsuitable⟩
  | send uris =>
    have inner := Except.eq_error_of_bind_pure failed
    exact .inl (argumentFails_of_evalTexts inner)
  | setBody clause | transform clause | filter clause =>
    have inner := Except.eq_error_of_bind_pure failed
    exact .inl (argumentFails_of_clause inner)
  | setHeader name clause =>
    obtain inner | ⟨_, _, failed⟩ := Except.bind_eq_error_iff.mp failed
    · exact .inl ((argumentFails_of_evalText inner).mono (List.cons_subset_cons _ (List.nil_subset _)))
    · have inner := Except.eq_error_of_bind_pure failed
      exact .inl ((argumentFails_of_clause inner).mono (List.subset_cons_self _ _))

/-- A call on a service fails by its argument, or because it is a target before the first verb. -/
theorem RestCall.fails_of_apply {call : RestCall} {service : RestService}
    (failed : call.apply (some properties) service = .error error) :
    ArgumentFails properties call.arguments error ∨
      ∃ uri target, call = .send uri ∧ uri.evalText (some properties) = .ok target ∧ service.verbs = [] ∧
        error = .misused (.targetWithoutVerb target) := by
  cases call with
  | description text | consumes text | produces text =>
    have inner := Except.eq_error_of_bind_pure failed
    exact .inl (argumentFails_of_evalText inner)
  | verb method uri =>
    have inner := Except.eq_error_of_bind_pure failed
    exact .inl (argumentFails_of_evalOptional inner)
  | send uri =>
    obtain inner | ⟨target, evaluated, failed⟩ := Except.bind_eq_error_iff.mp failed
    · exact .inl (argumentFails_of_evalText inner)
    · split at failed
      · rename_i none
        exact .inr ⟨uri, target, rfl, evaluated, List.isEmpty_iff.mp none, (Except.error.inj failed).symm⟩
      · cases failed

theorem ConfigurationCall.fails_of_apply {call : ConfigurationCall} {draft : RestConfigurationDraft}
    (failed : call.apply (some properties) draft = .error error) : ArgumentFails properties call.arguments error := by
  cases call with
  | set option value =>
    have inner := Except.eq_error_of_bind_pure failed
    exact argumentFails_of_evalText inner
  | property group key value =>
    obtain inner | ⟨_, _, failed⟩ := Except.bind_eq_error_iff.mp failed
    · exact (argumentFails_of_evalText inner).mono (List.cons_subset_cons _ (List.nil_subset _))
    · have inner := Except.eq_error_of_bind_pure failed
      exact (argumentFails_of_evalText inner).mono (List.subset_cons_self _ _)

/-! ### Instructions -/

/-- Why an instruction fails when it is reached with room for a number of open calls. -/
inductive Instruction.FailsWith (properties : Properties) (room : Nat) : Instruction → ConfigureError → Prop
  /-- It is a throw. -/
  | thrown {exception message text} : evalOptional (some properties) message = .ok text →
      FailsWith properties room (.throw exception message) (.raised exception (text.getD ""))
  /-- A placeholder in one of its arguments does not resolve. -/
  | unresolved {i error} : ArgumentFails properties i.arguments error → Unresolved properties error →
      FailsWith properties room i error
  /-- It is a call, and too many calls are open. -/
  | tooDeep {method} : room = 0 → FailsWith properties room (.invoke method)
      (.raised overflowException s!"call depth exceeded {callDepthLimit} at {method}()")
  /-- It defines a route, and whether that starts by itself is given as a text that is no truth value. -/
  | badAutoStartup {origin calls flag text} : .autoStartup flag ∈ calls →
      flag.eval (some properties) = .ok (.str text) →
      autoStartupFlag (.str text) = .error (.misused (.badAutoStartup text)) →
      FailsWith properties room (.route origin calls) (.misused (.badAutoStartup text))
  /-- It defines a service, and a target is given before the first verb. -/
  | targetWithoutVerb {path before uri after target} : (∀ method uri, .verb method uri ∉ before) →
      uri.evalText (some properties) = .ok target →
      FailsWith properties room (.rest path (before ++ .send uri :: after)) (.misused (.targetWithoutVerb target))

/-- A failing argument of an instruction has a placeholder that does not resolve. -/
theorem ArgumentFails.failsWith {i : Instruction} {room : Nat} (fails : ArgumentFails properties i.arguments error) :
    i.FailsWith properties room error := by
  obtain ⟨argument, member, failed⟩ := id fails
  exact .unresolved fails (argument.1.unresolved_of_eval failed)

/-- A truth value, or a text that is not one: nothing else is given as whether a route starts by itself. -/
theorem autoStartupFlag_error {value : Value} (typed : value.type ∈ [ValueType.bool, .str])
    (failed : autoStartupFlag value = .error error) :
    ∃ text, value = .str text ∧ error = .misused (.badAutoStartup text) := by
  cases value with
  | bool flag => cases failed
  | str text =>
    refine ⟨text, rfl, ?_⟩
    unfold autoStartupFlag at failed
    simp only at failed
    split at failed
    · cases failed
    · cases failed
    · exact (Except.error.inj failed).symm
  | int _ | null => simp [Value.type] at typed

/-- Changing the last verb of a service that has one leaves it with verbs. -/
theorem changeLast_verbs {service : RestService} (verbs : service.verbs ≠ []) (changeVerb : Verb → Verb)
    (changeService : RestService → RestService) : (changeLast service changeVerb changeService).verbs ≠ [] := by
  unfold changeLast
  rw [List.getLast?_eq_some_getLast verbs]
  simp

namespace RestCall

variable {reach : Reach}

/-- A service that has verbs keeps them. -/
theorem verbs_of_apply {call : RestCall} {service next : RestService} (applied : call.apply reach service = .ok next)
    (verbs : service.verbs ≠ []) : next.verbs ≠ [] := by
  cases call with
  | verb method uri =>
    obtain ⟨_, _, same⟩ := Except.bind_eq_ok_iff.mp applied
    obtain rfl := Except.ok.inj same
    simp
  | description text | consumes text | produces text =>
    obtain ⟨_, _, same⟩ := Except.bind_eq_ok_iff.mp applied
    obtain rfl := Except.ok.inj same
    exact changeLast_verbs verbs _ _
  | send uri =>
    obtain ⟨target, _, same⟩ := Except.bind_eq_ok_iff.mp applied
    split at same
    · cases same
    · obtain rfl := Except.ok.inj same
      exact changeLast_verbs verbs _ _

theorem verbs_of_foldlM {calls : List RestCall} {service next : RestService}
    (applied : calls.foldlM (RestCall.apply reach) service = .ok next) (verbs : service.verbs ≠ []) :
    next.verbs ≠ [] := by
  induction calls generalizing service with
  | nil =>
    obtain rfl := Except.ok.inj applied
    exact verbs
  | cons call later ih =>
    obtain ⟨between, first, rest⟩ := Except.bind_eq_ok_iff.mp applied
    exact ih rest (verbs_of_apply first verbs)

/-- Calls that leave a service without verbs contain none. -/
theorem verb_notMem {calls : List RestCall} {service next : RestService}
    (applied : calls.foldlM (RestCall.apply reach) service = .ok next) (none : next.verbs = []) (method : HttpMethod)
    (uri : Option Operand) : .verb method uri ∉ calls := by
  induction calls generalizing service with
  | nil => exact List.not_mem_nil
  | cons call later ih =>
    obtain ⟨between, first, rest⟩ := Except.bind_eq_ok_iff.mp applied
    refine List.mem_cons.not.mpr (not_or.mpr ⟨?_, ih rest⟩)
    -- A verb among the calls would still be there at the end, since the calls after it keep it.
    rintro rfl
    obtain ⟨_, _, same⟩ := Except.bind_eq_ok_iff.mp first
    obtain rfl := Except.ok.inj same
    exact verbs_of_foldlM rest (by simp) none

end RestCall

namespace Instruction

theorem failsWith_of_buildRoute {origin : Operand} {calls : List RouteCall} {room : Nat} {methods : List String}
    (sound : (Instruction.route origin calls).Sound methods)
    (failed : buildRoute (some properties) origin calls = .error error) :
    (Instruction.route origin calls).FailsWith properties room error := by
  obtain inner | ⟨_, _, failed⟩ := Except.bind_eq_error_iff.mp failed
  · exact ((argumentFails_of_evalText inner).mono (List.cons_subset_cons _ (List.nil_subset _))).failsWith
  · obtain ⟨before, call, after, route, rfl, _, failed⟩ := Except.exists_of_foldlM_eq_error failed
    obtain fails | ⟨flag, value, rfl, evaluated, failed⟩ := call.fails_of_apply failed
    · refine (fails.mono fun argument member => ?_).failsWith
      have listed : argument ∈ (before ++ call :: after).flatMap RouteCall.arguments :=
        List.mem_flatMap.mpr ⟨call, by simp, member⟩
      exact List.mem_cons_of_mem _ listed
    · have listed : (flag, [.bool, .str]) ∈ (before ++ .autoStartup flag :: after).flatMap RouteCall.arguments :=
        List.mem_flatMap.mpr ⟨.autoStartup flag, by simp, List.mem_singleton_self _⟩
      have suits := sound.suits (flag, [.bool, .str]) (List.mem_cons_of_mem _ listed)
      have typed : value.type ∈ [ValueType.bool, .str] := by
        rw [(suits.evaluates _ _ evaluated).1]
        exact suits.typed
      obtain ⟨text, rfl, rfl⟩ := autoStartupFlag_error typed failed
      exact .badAutoStartup (by simp) evaluated failed

theorem failsWith_of_buildRest {path : Option Operand} {calls : List RestCall} {room : Nat}
    (failed : buildRest (some properties) path calls = .error error) :
    (Instruction.rest path calls).FailsWith properties room error := by
  obtain inner | ⟨_, _, failed⟩ := Except.bind_eq_error_iff.mp failed
  · exact ((argumentFails_of_evalOptional inner).mono (List.subset_append_left _ _)).failsWith
  · obtain ⟨before, call, after, service, rfl, ran, failed⟩ := Except.exists_of_foldlM_eq_error failed
    obtain fails | ⟨uri, target, rfl, evaluated, verbs, rfl⟩ := call.fails_of_apply failed
    · refine (fails.mono fun argument member => ?_).failsWith
      have listed : argument ∈ (before ++ call :: after).flatMap RestCall.arguments :=
        List.mem_flatMap.mpr ⟨call, by simp, member⟩
      exact List.mem_append_right _ listed
    · exact .targetWithoutVerb (RestCall.verb_notMem ran verbs) evaluated

theorem argumentFails_of_applyConfigurationCalls {calls : List ConfigurationCall} {draft : RestConfigurationDraft}
    (failed : (applyConfigurationCalls (some properties) draft calls).2 = .error error) :
    ArgumentFails properties (calls.flatMap ConfigurationCall.arguments) error := by
  induction calls generalizing draft with
  | nil => cases failed
  | cons call later ih =>
    unfold applyConfigurationCalls at failed
    split at failed
    · exact (ih failed).mono (List.subset_append_right _ _)
    · rename_i fault fails
      obtain rfl := Except.error.inj failed
      exact (call.fails_of_apply fails).mono (List.subset_append_left _ _)

end Instruction

/-! ### Runs -/

/-- An instruction is reached by a run of instructions when those before it succeed, and with those of a method when
the call of the method is reached; with it goes the room that is left for open calls. -/
inductive Program.Reaches (p : Program) (reach : Reach) :
    Nat → List Instruction → Definitions → Nat → Instruction → Prop
  | here (room : Nat) (i : Instruction) (later : List Instruction) (d : Definitions) :
      Reaches p reach room (i :: later) d room i
  | next {room left : Nat} {i j : Instruction} {later : List Instruction} {d d' : Definitions} : i ≠ .return →
      (runInstructions reach (p.call reach room) [i]).run.run d = (.ok (), d') →
      Reaches p reach room later d' left j → Reaches p reach room (i :: later) d left j
  | inside {room left : Nat} {method : String} {body later : List Instruction} {j : Instruction} {d : Definitions} :
      p.methods.get? method = some body → Reaches p reach room body d left j →
      Reaches p reach (room + 1) (.invoke method :: later) d left j

/-- A single instruction other than a call fails for one of the reasons. -/
theorem Instruction.failsWith_of_run {i : Instruction} {methods : List String} (sound : i.Sound methods) {room : Nat}
    {call : String → Run Unit} (noCall : ∀ method, i ≠ .invoke method) {d : Definitions}
    (failed : ((runInstructions (some properties) call [i]).run.run d).1 = .error error) :
    i.FailsWith properties room error := by
  cases i with
  | invoke method => exact absurd rfl (noCall method)
  | «return» => cases failed
  | route origin calls =>
    rw [runInstructions, ExceptT.run_bind_state] at failed
    cases built : buildRoute (some properties) origin calls with
    | error fault =>
      rw [built] at failed
      obtain rfl := Except.error.inj failed
      exact failsWith_of_buildRoute sound built
    | ok route =>
      rw [built] at failed
      cases failed
  | rest path calls =>
    rw [runInstructions, ExceptT.run_bind_state] at failed
    cases built : buildRest (some properties) path calls with
    | error fault =>
      rw [built] at failed
      obtain rfl := Except.error.inj failed
      exact failsWith_of_buildRest built
    | ok service =>
      rw [built] at failed
      cases failed
  | restConfiguration component calls =>
    rw [runInstructions, ExceptT.run_bind_state, runRestConfiguration_run] at failed
    cases evaluated : evalOptional (some properties) component with
    | error fault =>
      rw [evaluated] at failed
      obtain rfl := Except.error.inj failed
      have fails : ArgumentFails properties (component.toList.map (·, [.str])) fault :=
        argumentFails_of_evalOptional evaluated
      exact (fails.mono (List.subset_append_left _ _)).failsWith
    | ok key =>
      simp only [evaluated] at failed
      split at failed
      · cases failed
      · rename_i fault _ applied
        obtain rfl := Except.error.inj failed
        have fails := argumentFails_of_applyConfigurationCalls (congrArg Prod.fst applied)
        exact (fails.mono (List.subset_append_right _ _)).failsWith
  | throw exception message =>
    rw [runInstructions, ExceptT.run_bind_state] at failed
    cases evaluated : evalOptional (some properties) message with
    | error fault =>
      rw [evaluated] at failed
      obtain rfl := Except.error.inj failed
      exact (argumentFails_of_evalOptional evaluated).failsWith
    | ok text =>
      rw [evaluated] at failed
      obtain rfl := Except.error.inj failed
      exact .thrown evaluated

/-- A program whose methods are sound and call only each other. -/
structure Program.Closed (p : Program) (methods : List String) : Prop where
  sound : ∀ name body, p.methods.get? name = some body → ∀ i ∈ body, i.Sound methods
  defined : ∀ name ∈ methods, ∃ body, p.methods.get? name = some body

/-- A run of sound instructions that fails has reached a failing instruction, when this holds for the calls of
methods. -/
theorem exists_failsWith_of_calls {p : Program} {methods : List String} {room : Nat}
    (calls : ∀ method ∈ methods, ∀ later d,
      ((p.call (some properties) room method).run.run d).1 = .error error →
        ∃ left i, p.Reaches (some properties) room (.invoke method :: later) d left i ∧
          i.FailsWith properties left error)
    {instructions : List Instruction} (sound : ∀ i ∈ instructions, i.Sound methods) {d : Definitions}
    (failed : ((runInstructions (some properties) (p.call (some properties) room) instructions).run.run d).1 =
      .error error) :
    ∃ left i, p.Reaches (some properties) room instructions d left i ∧ i.FailsWith properties left error := by
  -- Either the first instruction fails, or the others run on the definitions that it leaves.
  induction instructions generalizing d with
  | nil => cases failed
  | cons i later ih =>
    obtain ⟨soundFirst, soundLater⟩ := List.forall_mem_cons.mp sound
    by_cases goesOn : i = .return
    · subst goesOn
      cases failed
    have continues : .return ∉ [i] := by simpa [eq_comm] using goesOn
    rw [← List.singleton_append, runInstructions_append continues, ExceptT.run_bind_state] at failed
    rcases ran : (runInstructions (some properties) (p.call (some properties) room) [i]).run.run d with ⟨fault | _, d'⟩
    · rw [ran] at failed
      obtain rfl := Except.error.inj failed
      by_cases invokes : ∃ method, i = .invoke method
      · obtain ⟨method, rfl⟩ := invokes
        refine calls method (soundFirst.declared method rfl) later d ?_
        simpa [runInstructions] using congrArg Prod.fst ran
      · have noCall : ∀ method, i ≠ .invoke method := fun method same => invokes ⟨method, same⟩
        exact ⟨room, i, .here room i later d,
          Instruction.failsWith_of_run soundFirst noCall (congrArg Prod.fst ran)⟩
    · rw [ran] at failed
      obtain ⟨left, j, reaches, fails⟩ := ih soundLater failed
      exact ⟨left, j, .next goesOn ran reaches, fails⟩

/-- A run of sound instructions that fails has reached an instruction that fails for one of the reasons. -/
theorem Program.Closed.exists_failsWith {p : Program} {methods : List String} (closed : p.Closed methods)
    {instructions : List Instruction} (sound : ∀ i ∈ instructions, i.Sound methods) {room : Nat} {d : Definitions}
    (failed : ((runInstructions (some properties) (p.call (some properties) room) instructions).run.run d).1 =
      .error error) :
    ∃ left i, p.Reaches (some properties) room instructions d left i ∧ i.FailsWith properties left error := by
  refine exists_failsWith_of_calls ?_ sound failed
  -- The body of a called method is sound too, and runs with room for one open call less.
  clear failed sound instructions
  induction room with
  | zero =>
    intro method _ later d failed
    obtain rfl := Except.error.inj failed
    exact ⟨0, _, .here 0 _ later d, .tooDeep rfl⟩
  | succ room ih =>
    intro method member later d failed
    obtain ⟨body, stored⟩ := closed.defined method member
    rw [Program.call, stored] at failed
    obtain ⟨left, i, reaches, fails⟩ := exists_failsWith_of_calls ih (closed.sound method body stored) failed
    exact ⟨left, i, .inside stored reaches, fails⟩

end RouteDepot.RouteClass
