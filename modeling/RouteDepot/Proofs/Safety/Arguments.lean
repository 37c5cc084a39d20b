import RouteDepot.Proofs.Lowering.Body
import RouteDepot.Proofs.Lowering.Call
import RouteDepot.Proofs.Lowering.Class

/-! # Arguments of compiled instructions

Which operands of an instruction are arguments, with the types that the method they are given to accepts. In a program
that compiles every one of them has an accepted type, and its value, when it has one, is of that type and never null.
-/

namespace RouteDepot.RouteClass

/-! ### What is accepted where -/

/-- The types of texts that a clause accepts. -/
def accepts : ClauseLanguage → List ValueType
  | .constant => [.str, .int, .bool]
  | .simple | .header => [.str]

/-- The types that a single option of a REST configuration accepts. -/
def RestOption.accepts : RestOption → List ValueType
  | port => [.str, .int]
  | enableCors => [.bool, .str]
  | component | host | scheme | contextPath | apiContextPath | bindingMode => [.str]

/-- The argument of a clause. -/
def ClauseOperand.argument (c : ClauseOperand) : Operand × List ValueType := (c.text, accepts c.language)

/-- The arguments of a call on a route. -/
def RouteCall.arguments : RouteCall → List (Operand × List ValueType)
  | routeId text | description text | sendDynamic text | log text | removeHeader text => [(text, [.str])]
  | autoStartup flag => [(flag, [.bool, .str])]
  | send uris => uris.map (·, [.str])
  | setBody clause | transform clause | filter clause => [clause.argument]
  | setHeader name clause => [(name, [.str]), clause.argument]

/-- The arguments of a call on a REST service. -/
def RestCall.arguments : RestCall → List (Operand × List ValueType)
  | description text | consumes text | produces text | send text => [(text, [.str])]
  | verb _ uri => uri.toList.map (·, [.str])

/-- The arguments of a call on a REST configuration. -/
def ConfigurationCall.arguments : ConfigurationCall → List (Operand × List ValueType)
  | set option value => [(value, option.accepts)]
  | property _ key value => [(key, [.str]), (value, [.str])]

/-- The arguments of an instruction, with the types that are accepted for each. -/
def Instruction.arguments : Instruction → List (Operand × List ValueType)
  | route origin calls => (origin, [.str]) :: calls.flatMap RouteCall.arguments
  | rest path calls => path.toList.map (·, [.str]) ++ calls.flatMap RestCall.arguments
  | restConfiguration component calls =>
    component.toList.map (·, [.str]) ++ calls.flatMap ConfigurationCall.arguments
  | throw _ message => message.toList.map (·, [.str])
  | invoke _ | .return => []

/-- An operand suits the types that are accepted: it has one of them, and its value has that type and is not null. -/
structure Operand.Suits (operand : Operand) (accepted : List ValueType) : Prop where
  typed : operand.type ∈ accepted
  notNull : operand.type ≠ .null
  evaluates : ∀ reach value, operand.eval reach = .ok value → value.type = operand.type ∧ value ≠ .null

/-- An instruction whose arguments suit and that runs no method but those of a class. -/
structure Instruction.Sound (methods : List String) (i : Instruction) : Prop where
  suits : ∀ argument ∈ i.arguments, argument.1.Suits argument.2
  declared : ∀ name, i = .invoke name → name ∈ methods

/-! ### What lowering gives -/

theorem Operand.suits_of_type {operand : Operand} {accepted : List ValueType} (typed : operand.type ∈ accepted)
    (notNull : operand.type ≠ .null) : operand.Suits accepted where
  typed := typed
  notNull := notNull
  evaluates := by
    intro reach value evaluated
    have same := type_of_eval evaluated
    refine ⟨same, ?_⟩
    rintro rfl
    exact notNull same.symm

/-- An argument is the operand of an expression in a scope, and of a type that is accepted. -/
def Scope.Supplies (scope : Scope) (argument : Operand × List ValueType) : Prop :=
  ∃ arg, scope.Gives arg argument.2 argument.1

theorem Scope.Gives.supplies {scope : Scope} {arg : Expression} {accepted : List ValueType} {operand : Operand}
    (gives : scope.Gives arg accepted operand) : scope.Supplies (operand, accepted) := ⟨arg, gives⟩

theorem Scope.Supplies.suits {scope : Scope} {argument : Operand × List ValueType}
    (supplies : scope.Supplies argument) : argument.1.Suits argument.2 := by
  obtain ⟨_, gives⟩ := supplies
  exact Operand.suits_of_type gives.typed gives.notNull

section Supplies

variable {scope : Scope}

namespace ChainCall

variable {call : ChainCall}

theorem accepts_of_clauseLanguage? {name : String} {language : ClauseLanguage} {accepted : List ValueType}
    (found : clauseLanguage? name = some (language, accepted)) : accepted = accepts language := by
  unfold clauseLanguage? at found
  split at found <;> cases found <;> rfl

theorem accepts_of_restOption? {name : String} {option : RestOption} {accepted : List ValueType}
    (found : restOption? name = some (option, accepted)) : accepted = option.accepts := by
  unfold restOption? at found
  split at found <;> cases found <;> rfl

theorem MakesClause.supplies {clause : ClauseOperand} (made : call.MakesClause scope clause) :
    scope.Supplies clause.argument := by
  obtain ⟨named, _, gives⟩ := made
  rw [accepts_of_clauseLanguage? named] at gives
  exact gives.supplies

theorem EndsWithClause.supplies {rest : List Expression} {next : Option ChainCall} {clause : ClauseOperand}
    (ends : EndsWithClause scope rest next clause) : scope.Supplies clause.argument := by
  cases ends with
  | follows _ _ made | given _ made => exact made.supplies

theorem supplies_of_optional {operand? : Option Operand} {accepted : List ValueType}
    (lowered : call.optional scope accepted = .done operand?) :
    ∀ argument ∈ operand?.toList.map (·, accepted), scope.Supplies argument := by
  obtain ⟨_, rfl⟩ | ⟨arg, operand, _, rfl, gives⟩ := optional_eq_done_iff.mp lowered
  · simp
  · exact List.forall_mem_singleton.mpr gives.supplies

/-- The arguments of what a call says about a route are supplied. -/
theorem SaysOfRoute.supplies {next : Option ChainCall} {result : RouteCall}
    (said : call.SaysOfRoute scope next (some result)) : ∀ argument ∈ result.arguments, scope.Supplies argument := by
  cases said with
  | routeId _ _ gives | description _ _ gives | autoStartup _ _ gives | sendDynamic _ _ gives | log _ _ gives
  | removeHeader _ _ gives => exact List.forall_mem_singleton.mpr gives.supplies
  | send _ gives =>
    intro argument member
    obtain ⟨operand, listed, rfl⟩ := List.mem_map.mp member
    obtain ⟨arg, _, gives⟩ := gives.exists_left listed
    exact gives.supplies
  | setBody _ ends | transform _ ends | filter _ ends => exact List.forall_mem_singleton.mpr ends.supplies
  | setHeader _ _ gives ends =>
    exact List.forall_mem_cons.mpr ⟨gives.supplies, List.forall_mem_singleton.mpr ends.supplies⟩

/-- The arguments of what a call says about a service are supplied. -/
theorem SaysOfService.supplies {result : RestCall} (said : call.SaysOfService scope (some result)) :
    ∀ argument ∈ result.arguments, scope.Supplies argument := by
  cases said with
  | verb => exact List.forall_mem_nil _
  | verbAt _ _ gives | description _ _ gives | consumes _ _ gives | produces _ _ gives | send _ _ gives =>
    exact List.forall_mem_singleton.mpr gives.supplies

/-- The arguments of what a call says about a configuration are supplied. -/
theorem SaysOfConfiguration.supplies {result : ConfigurationCall}
    (said : call.SaysOfConfiguration scope (some result)) : ∀ argument ∈ result.arguments, scope.Supplies argument := by
  cases said with
  | set option _ gives =>
    rw [accepts_of_restOption? option] at gives
    exact List.forall_mem_singleton.mpr gives.supplies
  | property _ _ key value =>
    exact List.forall_mem_cons.mpr ⟨key.supplies, List.forall_mem_singleton.mpr value.supplies⟩

end ChainCall

/-- What the calls of a chain come to has the arguments of single calls. -/
theorem supplies_of_flatMap {α β : Type} {arguments : β → List (Operand × List ValueType)}
    {lowers : α → Option β → Prop} {items : List α} {results : List (Option β)}
    (related : List.Forall₂ lowers items results)
    (supplies : ∀ item result, lowers item (some result) → ∀ argument ∈ arguments result, scope.Supplies argument) :
    ∀ argument ∈ results.reduceOption.flatMap arguments, scope.Supplies argument := by
  intro argument member
  obtain ⟨result, listed, member⟩ := List.mem_flatMap.mp member
  obtain ⟨item, _, lowered⟩ := related.exists_left (List.reduceOption_mem_iff.mp listed)
  exact supplies item result lowered argument member

/-- The message of an exception is supplied. -/
theorem supplies_of_lowerThrow {value : Expression} {span : Span} {instruction : Instruction}
    (lowered : lowerThrow scope value span = .done instruction) :
    ∀ argument ∈ instruction.arguments, scope.Supplies argument := by
  obtain ⟨type, args, whole, _, ⟨_, rfl⟩ | ⟨arg, more, message, _, told, rfl⟩⟩ := lowerThrow_eq_done lowered
  · exact List.forall_mem_nil _
  · obtain ⟨operand, done, ⟨_, rfl⟩ | ⟨text, rfl⟩⟩ := exceptionMessage_eq_done_iff.mp told
    · exact List.forall_mem_nil _
    · exact List.forall_mem_singleton.mpr ⟨arg, done, by simp [text], by simp [text]⟩

/-- The arguments of an expression that stands as a statement are supplied. -/
theorem supplies_of_instruction {e : Expression} {instruction : Instruction}
    (lowered : e.instruction scope = .done instruction) :
    ∀ argument ∈ instruction.arguments, scope.Supplies argument := by
  obtain ⟨first, later, _, lowered⟩ := Expression.instruction_eq_done lowered
  obtain ⟨_, ⟨_, _, _, rfl⟩ | ⟨_, ⟨_, lowered⟩ | ⟨_, lowered⟩ | ⟨_, lowered⟩⟩⟩ := lowerChain_eq_done lowered
  · exact List.forall_mem_nil _
  · obtain ⟨origin, calls, begun, related, rfl⟩ := lowerRoute_eq_done_iff.mp lowered
    obtain ⟨arg, _, gives⟩ := ChainCall.single_eq_done_iff.mp begun
    refine List.forall_mem_cons.mpr ⟨gives.supplies, supplies_of_flatMap related fun pair result done => ?_⟩
    exact (ChainCall.saysOfRoute_of_routeCall done).supplies
  · obtain ⟨path, calls, begun, related, rfl⟩ := lowerRest_eq_done_iff.mp lowered
    refine List.forall_mem_append.mpr ⟨ChainCall.supplies_of_optional begun,
      supplies_of_flatMap related fun call result done => ?_⟩
    exact (ChainCall.saysOfService_of_restCall done).supplies
  · obtain ⟨component, calls, begun, related, rfl⟩ := lowerRestConfiguration_eq_done_iff.mp lowered
    refine List.forall_mem_append.mpr ⟨ChainCall.supplies_of_optional begun,
      supplies_of_flatMap related fun call result done => ?_⟩
    exact (ChainCall.saysOfConfiguration_of_configurationCall done).supplies

/-- A method that an expression calls as a statement is one of its scope. -/
theorem mem_methods_of_instruction {e : Expression} {name : String}
    (lowered : e.instruction scope = .done (.invoke name)) : name ∈ scope.methods := by
  obtain ⟨first, later, _, lowered⟩ := Expression.instruction_eq_done lowered
  obtain ⟨_, ⟨_, member, _, same⟩ | ⟨_, ⟨_, lowered⟩ | ⟨_, lowered⟩ | ⟨_, lowered⟩⟩⟩ := lowerChain_eq_done lowered
  · obtain rfl := Instruction.invoke.inj same
    exact member
  · obtain ⟨_, _, _, _, same⟩ := lowerRoute_eq_done_iff.mp lowered
    cases same
  · obtain ⟨_, _, _, _, same⟩ := lowerRest_eq_done_iff.mp lowered
    cases same
  · obtain ⟨_, _, _, _, same⟩ := lowerRestConfiguration_eq_done_iff.mp lowered
    cases same

end Supplies

/-- The instructions of a body without faults are sound for the methods in its scope. -/
theorem soundProperty (methods : List String) :
    BodyProperty (fun scope => scope.methods = methods) (Instruction.Sound methods) where
  declaration same _ := same
  returning := ⟨List.forall_mem_nil _, nofun⟩
  throwing := by
    intro scope value span instruction _ lowered
    refine ⟨fun argument member => (supplies_of_lowerThrow lowered argument member).suits, ?_⟩
    rintro name rfl
    obtain ⟨_, _, _, _, ⟨_, same⟩ | ⟨_, _, _, _, _, same⟩⟩ := lowerThrow_eq_done lowered <;> cases same
  expression := by
    intro scope e instruction same lowered
    refine ⟨fun argument member => (supplies_of_instruction lowered argument member).suits, ?_⟩
    rintro name rfl
    exact same ▸ mem_methods_of_instruction lowered

/-! ### Programs -/

/-- The instructions of the constructor or of a method of a program. -/
def Program.HasBody (p : Program) (instructions : List Instruction) : Prop :=
  p.constructor = some instructions ∨ ∃ name, p.methods.get? name = some instructions

namespace ClassDeclaration.Accepted

variable {c : ClassDeclaration} {fields : List (String × Value)} {bodies : List (Option (String × List Instruction))}
  {p : Program}

/-- A body of a program is empty, or a block of its class is lowered to it. -/
theorem body_eq (accepted : c.Accepted fields bodies p) {instructions : List Instruction}
    (body : p.HasBody instructions) :
    instructions = [] ∨ ∃ place name, ∃ block : Block,
      block.lower { c.scope fields with place, body := name } = .done instructions := by
  obtain constructor | ⟨name, stored⟩ := body
  · obtain rfl | ⟨block, lowered⟩ := accepted.constructor_eq constructor
    · exact .inl rfl
    · exact .inr ⟨_, _, block, lowered⟩
  · obtain ⟨m, _, _, _, block, _, lowered⟩ := accepted.get?_methods_eq_some_iff.mp stored
    exact .inr ⟨_, _, block, lowered⟩

/-- What holds for the instructions of every body that begins in a scope of the class holds for those of its program. -/
theorem forall_body {invariant : Scope → Prop} {holds : Instruction → Prop} (property : BodyProperty invariant holds)
    (accepted : c.Accepted fields bodies p)
    (start : ∀ place name, invariant { c.scope fields with place, body := name }) {instructions : List Instruction}
    (body : p.HasBody instructions) : ∀ i ∈ instructions, holds i := by
  obtain rfl | ⟨place, name, block, lowered⟩ := accepted.body_eq body
  · exact List.forall_mem_nil _
  · exact Block.forall_lower property (start place name) lowered

/-- The instructions of an accepted class are sound. -/
theorem sound (accepted : c.Accepted fields bodies p) {instructions : List Instruction}
    (body : p.HasBody instructions) : ∀ i ∈ instructions, i.Sound (c.scope fields).methods :=
  accepted.forall_body (soundProperty _) (fun _ _ => rfl) body

end ClassDeclaration.Accepted

end RouteDepot.RouteClass
