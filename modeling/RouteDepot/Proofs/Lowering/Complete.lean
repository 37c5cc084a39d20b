import RouteDepot.Proofs.Lowering.Class
import RouteDepot.Proofs.Lowering.Entries
import RouteDepot.Proofs.Position.Reported

/-! # Nothing is dropped in silence

Whatever a part of a body is lowered to, a value that is missing is accounted for by a fault behind the ones that were
reported before, and those stay. Without a new fault the instruction of a chain has an entry for each of its calls, and
the instructions of a body are those of its statements, one after another.
-/

namespace RouteDepot.RouteClass

/-! ### Faults reported before -/

namespace Lowered

variable {α : Type} {result : Lowered α} {reported : List (Finding SemanticFault)}

/-- What something is lowered to when faults have been reported before. -/
def after (result : Lowered α) (reported : List (Finding SemanticFault)) : Lowered α := do
  reportAll reported
  result

@[simp] theorem value?_after : (result.after reported).value? = result.value? := rfl

@[simp] theorem faults_after : (result.after reported).faults = reported ++ result.faults := rfl

/-- Faults that were reported before stay, and a missing value adds one to them. -/
theorem Explained.after (explained : result.Explained) :
    reported <+: (result.after reported).faults ∧
      ((result.after reported).value? = none → (result.after reported).faults ≠ reported) := by
  refine ⟨List.prefix_append _ _, fun missing unchanged => ?_⟩
  rw [faults_after, List.append_right_eq_self] at unchanged
  obtain ⟨a, rfl⟩ := explained unchanged
  cases missing

/-- What holds for the value of a lowering without faults holds for the value of one that adds no fault. -/
theorem Explained.exists_of_after {P : α → Prop} (explained : result.Explained)
    (holds : ∀ a, result = done a → P a) (unchanged : (result.after reported).faults = reported) :
    ∃ a, (result.after reported).value? = some a ∧ P a := by
  rw [faults_after, List.append_right_eq_self] at unchanged
  obtain ⟨a, lowered⟩ := explained unchanged
  exact ⟨a, by rw [value?_after, lowered, done], holds a lowered⟩

end Lowered

/-! ### Parts of a body -/

/-- What a part of a body is lowered to: the results of all functions that lower names, expressions, arguments, clauses,
calls, chains, statements and local variables. -/
inductive PartLowered (scope : Scope) : {α : Type} → Lowered α → Prop
  | field (name : Ident) : PartLowered scope (scope.field name)
  | name (name : Ident) : PartLowered scope (scope.resolve name)
  | expression (e : Expression) : PartLowered scope (e.operand scope)
  | sum (span : Span) (left right : Operand) : PartLowered scope (Operand.plus span left right)
  | argument (method : String) (accepted : List ValueType) (arg : Expression) :
      PartLowered scope (scope.argument method accepted arg)
  | arguments (call : ChainCall) (accepted : List (List ValueType)) : PartLowered scope (call.arguments scope accepted)
  | single (call : ChainCall) (accepted : List ValueType) : PartLowered scope (call.single scope accepted)
  | optional (call : ChainCall) (accepted : List ValueType) : PartLowered scope (call.optional scope accepted)
  | texts (call : ChainCall) : PartLowered scope (call.texts scope)
  | textPair (call : ChainCall) : PartLowered scope (call.textPair scope)
  | clause (call : ChainCall) : PartLowered scope (call.clause scope)
  | trailingClause (call : ChainCall) (next : Option ChainCall) : PartLowered scope (call.trailingClause scope next)
  | inlineClause (call : ChainCall) (arg : Expression) : PartLowered scope (call.inlineClause scope arg)
  | onlyClause (call : ChainCall) (next : Option ChainCall) : PartLowered scope (call.onlyClause scope next)
  | headerClause (call : ChainCall) (next : Option ChainCall) : PartLowered scope (call.headerClause scope next)
  | routeCall (call : ChainCall) (next : Option ChainCall) : PartLowered scope (call.routeCall scope next)
  | restCall (call : ChainCall) : PartLowered scope (call.restCall scope)
  | configurationCall (call : ChainCall) : PartLowered scope (call.configurationCall scope)
  | route (first : ChainCall) (later : List ChainCall) : PartLowered scope (lowerRoute scope first later)
  | rest (first : ChainCall) (later : List ChainCall) : PartLowered scope (lowerRest scope first later)
  | restConfiguration (first : ChainCall) (later : List ChainCall) :
      PartLowered scope (lowerRestConfiguration scope first later)
  | invocation (first : ChainCall) (later : List ChainCall) : PartLowered scope (lowerInvocation scope first later)
  | chain (first : ChainCall) (later : List ChainCall) : PartLowered scope (lowerChain scope first later)
  | statement (e : Expression) : PartLowered scope (e.instruction scope)
  | message (arg : Expression) : PartLowered scope (exceptionMessage scope arg)
  | throw (value : Expression) (span : Span) : PartLowered scope (lowerThrow scope value span)
  | declaration (type : TypeName) (name : Ident) (value : Option Expression) :
      PartLowered scope (lowerDeclaration scope type name value)

theorem PartLowered.explained {scope : Scope} {α : Type} {result : Lowered α} (part : PartLowered scope result) :
    result.Explained := by
  cases part with
  | field name => exact (Scope.decided_field name).explained
  | name name => exact (Scope.decided_resolve name).explained
  | expression e => exact e.explained_operand scope
  | sum => exact Operand.decided_plus.explained
  | argument => exact scope.explained_argument _ _ _
  | arguments call => exact call.explained_arguments scope _
  | single call => exact call.explained_single scope _
  | optional call => exact call.explained_optional scope _
  | texts call => exact call.explained_texts scope
  | textPair call => exact call.explained_textPair scope
  | clause call => exact call.explained_clause scope
  | trailingClause call => exact call.explained_trailingClause scope _
  | inlineClause call => exact call.explained_inlineClause scope _
  | onlyClause call => exact call.explained_onlyClause scope _
  | headerClause call => exact call.explained_headerClause scope _
  | routeCall call => exact call.explained_routeCall scope _
  | restCall call => exact call.explained_restCall scope
  | configurationCall call => exact call.explained_configurationCall scope
  | route => exact explained_lowerRoute scope _ _
  | rest => exact explained_lowerRest scope _ _
  | restConfiguration => exact explained_lowerRestConfiguration scope _ _
  | invocation => exact explained_lowerInvocation scope _ _
  | chain => exact explained_lowerChain scope _ _
  | statement e => exact e.explained_instruction scope
  | message => exact explained_exceptionMessage scope _
  | throw => exact explained_lowerThrow scope _ _
  | declaration => exact explained_lowerDeclaration scope _ _ _

/-! ### Statements -/

/-- What was reported for statements stays when others follow them. -/
theorem faults_prefix_append (scope : Scope) (statements later : List Statement) :
    (lowerStatements scope statements).faults <+: (lowerStatements scope (statements ++ later)).faults := by
  induction statements generalizing scope with
  | nil => simp [lowerStatements]
  | cons statement statements ih =>
    rw [List.cons_append, lowerStatements, lowerStatements]
    cases ends : (statement.lower scope).ends with
    | false => exact List.prefix_append_right_inj _ |>.mpr (ih _)
    | true =>
      simp only [if_true, LoweredBody.followedBy, List.findSome?_append]
      cases statements.findSome? Statement.span? with
      | some span => exact List.prefix_rfl
      | none =>
        cases later.findSome? Statement.span? with
        | some span => exact List.prefix_append _ _
        | none => exact List.prefix_rfl

/-- The message that an argument of an exception gives: its operand, which is a text, or none if it is null. -/
inductive GivesMessage (scope : Scope) (arg : Expression) : Option Operand → Prop
  | null (lowered : arg.operand scope = .done (.const .null)) : GivesMessage scope arg none
  | text {operand} (lowered : arg.operand scope = .done operand) (typed : operand.type = .str) :
      GivesMessage scope arg (some operand)

theorem givesMessage_of_exceptionMessage {scope : Scope} {arg : Expression} {message : Option Operand}
    (lowered : exceptionMessage scope arg = .done message) : GivesMessage scope arg message := by
  obtain ⟨operand, found, ⟨rfl, rfl⟩ | ⟨typed, rfl⟩⟩ := exceptionMessage_eq_done_iff.mp lowered
  · exact .null found
  · exact .text found typed

mutual

/-- What a statement becomes: its instructions, whether it ends the body, and the local variables behind it. A
declaration becomes no instruction, because its variable stands for its value. -/
inductive Statement.Becomes :
    Scope → Statement → List Instruction → Bool → List (String × Option Operand) → Prop
  | empty {scope} : Statement.Becomes scope .empty [] false scope.locals
  | block {scope body span instructions ends locals} (inner : Become scope body instructions ends locals) :
      Statement.Becomes scope (.block body span) instructions ends scope.locals
  | «return» {scope span} : Statement.Becomes scope (.return span) [.return] true scope.locals
  | throwPlain {scope type whole span} :
      Statement.Becomes scope (.throw (.new type [] whole) span) [.throw type.text none] true scope.locals
  | throw {scope type arg more whole span message} (gives : GivesMessage scope arg message) :
      Statement.Becomes scope (.throw (.new type (arg :: more) whole) span) [.throw type.text message] true scope.locals
  | declarePlain {scope type name} :
      Statement.Becomes scope (.declare type name none) [] false ((name.name, none) :: scope.locals)
  | declare {scope type name value operand} (stands : value.operand scope = .done operand) :
      Statement.Becomes scope (.declare type name (some value)) [] false ((name.name, some operand) :: scope.locals)
  | expression {scope value first later instruction} (calls : value.Chains (first :: later))
      (chain : ChainBecomes scope first later instruction) :
      Statement.Becomes scope (.expression value) [instruction] false scope.locals

/-- What statements become: the instructions of all of them in order. Only empty statements may follow one that ends the
body. -/
inductive Become : Scope → List Statement → List Instruction → Bool → List (String × Option Operand) → Prop
  | nil {scope} : Become scope [] [] false scope.locals
  | ended {scope statement later instructions locals}
      (last : Statement.Becomes scope statement instructions true locals) (blank : ∀ s ∈ later, s = .empty) :
      Become scope (statement :: later) instructions true locals
  | cons {scope statement later instructions others ends locals locals'}
      (first : Statement.Becomes scope statement instructions false locals)
      (rest : Become { scope with locals } later others ends locals') :
      Become scope (statement :: later) (instructions ++ others) ends locals'

end

/-- Only empty statements are not reported when they cannot be reached. -/
theorem eq_empty_of_findSome?_span? {later : List Statement} (silent : later.findSome? Statement.span? = none) :
    ∀ s ∈ later, s = .empty := by
  intro s member
  have silent := List.findSome?_eq_none_iff.mp silent s member
  cases s with
  | empty => rfl
  | expression | declare | throw | «return» | block => cases silent

mutual

/-- A statement that is lowered without faults becomes its instructions. -/
theorem Statement.becomes_of_clean (scope : Scope) (s : Statement) (clean : (s.lower scope).faults = []) :
    s.Becomes scope (s.lower scope).instructions (s.lower scope).ends (s.lower scope).locals := by
  cases s with
  | empty =>
    rw [Statement.lower]
    exact .empty
  | block body span =>
    rw [Statement.lower] at clean ⊢
    exact .block (become_of_clean scope body clean)
  | «return» span =>
    rw [Statement.lower]
    exact .return
  | throw value span =>
    rw [Statement.lower] at clean ⊢
    obtain ⟨i, lowered, same⟩ := LoweredBody.ofInstruction_eq_of_clean (explained_lowerThrow _ _ _) clean
    rw [same]
    obtain ⟨type, args, whole, rfl, ⟨rfl, rfl⟩ | ⟨arg, more, message, rfl, told, rfl⟩⟩ := lowerThrow_eq_done lowered
    · exact .throwPlain
    · exact .throw (givesMessage_of_exceptionMessage told)
  | declare type name value =>
    rw [Statement.lower] at clean ⊢
    obtain ⟨locals, lowered⟩ := explained_lowerDeclaration scope type name value clean
    rw [lowered]
    obtain ⟨rfl, rfl⟩ | ⟨e, operand, rfl, stands, rfl⟩ := lowerDeclaration_eq_done lowered
    · exact .declarePlain
    · exact .declare stands
  | expression e =>
    rw [Statement.lower] at clean ⊢
    obtain ⟨i, lowered, same⟩ := LoweredBody.ofInstruction_eq_of_clean (e.explained_instruction _) clean
    rw [same]
    obtain ⟨first, later, calls, chain⟩ := e.chains_of_instruction lowered
    exact .expression calls chain

theorem become_of_clean (scope : Scope) (body : List Statement) (clean : (lowerStatements scope body).faults = []) :
    Become scope body (lowerStatements scope body).instructions (lowerStatements scope body).ends
      (lowerStatements scope body).locals := by
  cases body with
  | nil =>
    rw [lowerStatements]
    exact .nil
  | cons statement later =>
    have first := statement.becomes_of_clean scope (clean_of_lowerStatements_cons clean)
    cases ends : (statement.lower scope).ends with
    | true =>
      have same := lowerStatements_cons_of_ends ends clean
      simp only [lowerStatements, ends, if_true] at clean
      rw [same, ends]
      rw [ends] at first
      exact .ended first (eq_empty_of_findSome?_span? (findSome?_span?_of_clean clean))
    | false =>
      rw [lowerStatements_cons_of_continues ends] at clean ⊢
      rw [ends] at first
      exact .cons first (become_of_clean _ later (List.append_eq_nil_iff.mp clean).2)

end

/-- A body becomes instructions. -/
def Block.Becomes (scope : Scope) (b : Block) (instructions : List Instruction) : Prop :=
  ∃ ends locals, Become scope b.body instructions ends locals

theorem Block.becomes_of_lower {scope : Scope} {b : Block} {instructions : List Instruction}
    (lowered : b.lower scope = .done instructions) : b.Becomes scope instructions := by
  obtain ⟨value, clean⟩ := Lowered.eq_done_iff.mp lowered
  obtain rfl := Option.some.inj value
  exact ⟨_, _, become_of_clean scope b.body clean⟩

/-! ### Classes and units -/

namespace ClassDeclaration

/-- What a class becomes: the fields have values, and among its members the bodies of the constructor and of all methods
without parameters are the instructions of the program. -/
structure Becomes (c : ClassDeclaration) (p : Program) : Prop where
  name : p.name = c.name.name
  bodies : ∃ fields, lowerFields (c.scope []) c.fields = .done fields ∧
    (∀ d, .constructor d ∈ c.members → d.parameters = [] → ∃ instructions, p.constructor = some instructions ∧
      d.body.Becomes { c.scope fields with place := .constructor, body := c.name.name } instructions) ∧
    ∀ m, .method m ∈ c.members → m.parameters = [] → ∀ body, m.body = some body →
      ∃ instructions, p.methods.get? m.name.name = some instructions ∧
        body.Becomes { c.scope fields with place := .method, body := m.name.name } instructions

namespace Accepted

variable {c : ClassDeclaration} {fields : List (String × Value)} {bodies : List (Option (String × List Instruction))}
  {p : Program}

/-- The constructor without parameters is that of the program. -/
theorem constructor_becomes (accepted : c.Accepted fields bodies p) {d : ConstructorDeclaration}
    (member : .constructor d ∈ c.members) (plain : d.parameters = []) :
    ∃ instructions, p.constructor = some instructions ∧
      d.body.Becomes { c.scope fields with place := .constructor, body := c.name.name } instructions := by
  have lowered := accepted.constructor_done
  have listed : d ∈ c.constructors.filter (·.parameters.isEmpty) :=
    List.mem_filter.mpr ⟨List.mem_filterMap.mpr ⟨_, member, rfl⟩, by simp [plain]⟩
  unfold lowerConstructor at lowered
  split at lowered
  · next none =>
    rw [none] at listed
    cases listed
  · next first duplicates found =>
    obtain ⟨_, reported, body⟩ := Lowered.bind_eq_done_iff.mp lowered
    obtain ⟨instructions, body, same⟩ := Lowered.map_eq_done_iff.mp body
    obtain rfl := List.map_eq_nil_iff.mp (Lowered.reportAll_eq_done_iff.mp reported)
    obtain rfl : d = first := by simpa [found] using listed
    exact ⟨instructions, same.symm, Block.becomes_of_lower body⟩

/-- Every method without parameters that has a body is a method of the program. -/
theorem method_becomes (accepted : c.Accepted fields bodies p) {m : MethodDeclaration}
    (listed : .method m ∈ c.members) (plain : m.parameters = []) {body : Block} (found : m.body = some body) :
    ∃ instructions, p.methods.get? m.name.name = some instructions ∧
      body.Becomes { c.scope fields with place := .method, body := m.name.name } instructions := by
  have member : m ∈ c.methods := List.mem_filterMap.mpr ⟨_, listed, rfl⟩
  obtain ⟨result, _, lowered⟩ := accepted.methods_done.exists_right member
  unfold lowerMethod at lowered
  obtain ⟨_, _, lowered⟩ := Lowered.bind_eq_done_iff.mp lowered
  simp only [found, plain, List.isEmpty_nil, if_true] at lowered
  obtain ⟨instructions, lowered, _⟩ := Lowered.bind_eq_done_iff.mp lowered
  exact ⟨instructions, accepted.get?_methods_eq_some_iff.mpr ⟨m, member, plain, rfl, body, found, lowered⟩,
    Block.becomes_of_lower lowered⟩

end Accepted

theorem becomes_of_lower {c : ClassDeclaration} {package : Option String} {p : Program}
    (lowered : c.lower package = .done p) : c.Becomes p := by
  obtain ⟨fields, bodies, accepted⟩ := accepted_of_lower lowered
  exact ⟨accepted.name_eq, fields, accepted.fields_done, fun _ => accepted.constructor_becomes,
    fun _ listed plain _ => accepted.method_becomes listed plain⟩

end ClassDeclaration

/-- What a unit becomes: each of its classes becomes a program, and the one of the name asked for is the program of the
unit. -/
def SourceUnit.Becomes (u : SourceUnit) (qualifiedName : String) (p : Program) : Prop :=
  ∃ programs : List Program, List.Forall₂ ClassDeclaration.Becomes u.classes programs ∧ p ∈ programs ∧
    p.name = (splitName qualifiedName).2

theorem SourceUnit.becomes_of_lower {u : SourceUnit} {qualifiedName : String} {p : Program}
    (success : u.lower qualifiedName = .ok p) : u.Becomes qualifiedName p := by
  obtain ⟨_, programs, lowered, found⟩ := programs_of_lower_eq_ok success
  have each := (lowerClasses_eq_done_iff.mp lowered).2.2
  have member : ((splitName qualifiedName).2, p) ∈ programs := by
    obtain ⟨_, _, rfl, _⟩ := List.lookup_eq_some_iff.mp found
    simp
  obtain ⟨c, _, named, done⟩ := each.exists_left member
  refine ⟨programs.map (·.2), List.forall₂_map_right_iff.mpr (each.imp fun _ _ related => ?_),
    List.mem_map_of_mem member, ?_⟩
  · exact ClassDeclaration.becomes_of_lower related.2
  · exact (ClassDeclaration.becomes_of_lower done).name.trans named

/-- Nothing is dropped in silence. Whatever part of a body is lowered in whatever scope, after whatever was reported
before: the faults reported before stay, and if there is no value a fault has been added; statements that follow take no
fault away. If no fault is added, a statement has become the instruction of the calls that it chains, and a chain of each
of the three definitions an instruction that has entries for all its calls, in order. A unit that is lowered to a program
has become it statement by statement, and one that is not has faults. -/
theorem lowering_drops_nothing :
    (∀ (scope : Scope) {α : Type} (result : Lowered α), PartLowered scope result → ∀ reported,
      reported <+: (result.after reported).faults ∧
        ((result.after reported).value? = none → (result.after reported).faults ≠ reported)) ∧
    (∀ scope statements later,
      (lowerStatements scope statements).faults <+: (lowerStatements scope (statements ++ later)).faults) ∧
    (∀ scope (e : Expression) reported, ((e.instruction scope).after reported).faults = reported →
      ∃ instruction, ((e.instruction scope).after reported).value? = some instruction ∧
        ∃ first later, e.Chains (first :: later) ∧ ChainBecomes scope first later instruction) ∧
    (∀ scope first later reported,
      (((lowerRoute scope first later).after reported).faults = reported → ∃ origin entries,
        ((lowerRoute scope first later).after reported).value? = some (.route origin entries) ∧
          RouteEntries scope later entries) ∧
      (((lowerRest scope first later).after reported).faults = reported → ∃ path entries,
        ((lowerRest scope first later).after reported).value? = some (.rest path entries) ∧
          ServiceEntries scope later entries) ∧
      (((lowerRestConfiguration scope first later).after reported).faults = reported → ∃ component entries,
        ((lowerRestConfiguration scope first later).after reported).value? =
            some (.restConfiguration component entries) ∧
          ConfigurationEntries scope later entries)) ∧
    ∀ (u : SourceUnit) (qualifiedName : String),
      (∀ p, u.lower qualifiedName = .ok p → u.Becomes qualifiedName p) ∧
        ∀ faults, u.lower qualifiedName = .error faults → faults ≠ [] := by
  refine ⟨fun _ _ _ part _ => part.explained.after, faults_prefix_append, fun scope e reported unchanged => ?_,
    fun scope first later reported => ⟨?_, ?_, ?_⟩,
    fun u _ => ⟨fun _ => SourceUnit.becomes_of_lower, fun _ => SourceUnit.faults_ne_nil_of_lower_eq_error⟩⟩
  · exact (e.explained_instruction scope).exists_of_after (fun _ => e.chains_of_instruction) unchanged
  · intro unchanged
    obtain ⟨_, value, origin, entries, rfl, _, calls⟩ :=
      (explained_lowerRoute scope first later).exists_of_after (fun _ => entries_of_lowerRoute) unchanged
    exact ⟨origin, entries, value, calls⟩
  · intro unchanged
    obtain ⟨_, value, path, entries, rfl, _, calls⟩ :=
      (explained_lowerRest scope first later).exists_of_after (fun _ => entries_of_lowerRest) unchanged
    exact ⟨path, entries, value, calls⟩
  · intro unchanged
    obtain ⟨_, value, component, entries, rfl, _, calls⟩ :=
      (explained_lowerRestConfiguration scope first later).exists_of_after (fun _ => entries_of_lowerRestConfiguration)
        unchanged
    exact ⟨component, entries, value, calls⟩

/-- A route builder whose chains have a clause that follows its call, calls of `end`, and two targets in one call. -/
def chainedSource : String :=
  "class Chained extends RouteBuilder \x7b void configure() \x7b " ++
  "from(\"a\").setBody().constant(1).end().to(\"b\", \"c\"); rest().get().to(\"d\").end(); \x7d \x7d"

/-- How many entries an instruction has. -/
def Instruction.entryCount : Instruction → Nat
  | .route _ entries => entries.length
  | .rest _ entries => entries.length
  | .restConfiguration _ entries => entries.length
  | .invoke _ | .throw _ _ | .return => 0

/-- The route builder becomes a program in which the route has two entries, and so has the service. -/
theorem lowering_drops_nothing_chained :
    ∃ u p, SourceUnit.ofTokens (Lexed.ofSource chainedSource).tokens (Lexed.ofSource chainedSource).stopSpan = .ok u ∧
      u.lower "Chained" = .ok p ∧ u.Becomes "Chained" p ∧
      (p.methods.get? "configure").map (·.map Instruction.entryCount) = some [2, 2] := by
  have ran : ((SourceUnit.ofTokens (Lexed.ofSource chainedSource).tokens
      (Lexed.ofSource chainedSource).stopSpan).toOption.bind fun u => (u.lower "Chained").toOption.bind fun p =>
        (p.methods.get? "configure").map (·.map Instruction.entryCount)) = some [2, 2] := by
    have lexed : Lexed.ofSource chainedSource = _ := Lexed.ofSource_eq
      (Lexed.toList_append_eq String.toList_ofList String.toList_ofList)
    rw [lexed]
    decide +kernel
  obtain ⟨u, parsed, ran⟩ := Option.bind_eq_some_iff.mp ran
  obtain ⟨p, lowered, ran⟩ := Option.bind_eq_some_iff.mp ran
  have lowered := Except.eq_ok_of_toOption lowered
  obtain ⟨_, _, _, _, units⟩ := lowering_drops_nothing
  exact ⟨u, p, Except.eq_ok_of_toOption parsed, lowered, (units u "Chained").1 p lowered, ran⟩

end RouteDepot.RouteClass
