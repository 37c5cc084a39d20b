import RouteDepot.Proofs.Lowering.Chain
import RouteDepot.Proofs.Lowering.Explained

/-! # Bodies lowered without faults

What a statement becomes when lowering it reports nothing, and from that, for every kind of statement, what a
property of single instructions needs in order to hold for all instructions of a body.
-/

namespace RouteDepot.RouteClass

/-! ### Chains -/

section Chains

variable {scope : Scope} {first : ChainCall} {later : List ChainCall} {instruction : Instruction}

theorem lowerRoute_eq_done_iff :
    lowerRoute scope first later = .done instruction ↔
      ∃ origin calls, first.single scope [.str] = .done origin ∧
        List.Forall₂ (fun (pair : ChainCall × Option ChainCall) call => pair.1.routeCall scope pair.2 = .done call)
          (withClauses later) calls ∧
        instruction = .route origin calls.reduceOption := by
  simp only [lowerRoute, Lowered.bind_eq_done_iff, Lowered.all_map_eq_done_iff, Lowered.pure_eq_done,
    Lowered.done_inj, eq_comm (a := instruction), exists_and_left]

theorem lowerRest_eq_done_iff :
    lowerRest scope first later = .done instruction ↔
      ∃ path calls, first.optional scope [.str] = .done path ∧
        List.Forall₂ (fun (call : ChainCall) result => call.restCall scope = .done result) later calls ∧
        instruction = .rest path calls.reduceOption := by
  simp only [lowerRest, Lowered.bind_eq_done_iff, Lowered.all_map_eq_done_iff, Lowered.pure_eq_done,
    Lowered.done_inj, eq_comm (a := instruction), exists_and_left]

theorem lowerRestConfiguration_eq_done_iff :
    lowerRestConfiguration scope first later = .done instruction ↔
      ∃ component calls, first.optional scope [.str] = .done component ∧
        List.Forall₂ (fun (call : ChainCall) result => call.configurationCall scope = .done result) later calls ∧
        instruction = .restConfiguration component calls.reduceOption := by
  simp only [lowerRestConfiguration, Lowered.bind_eq_done_iff, Lowered.all_map_eq_done_iff, Lowered.pure_eq_done,
    Lowered.done_inj, eq_comm (a := instruction), exists_and_left]

theorem lowerInvocation_eq_done_iff :
    lowerInvocation scope first later = .done instruction ↔
      scope.place = .method ∧ first.args = [] ∧ first.name.name ∈ scope.methods ∧ later = [] ∧
        instruction = .invoke first.name.name := by
  unfold lowerInvocation
  extract_lets name
  split
  · rename_i place
    simp [place]
  · rename_i place
    split
    · rename_i unsuitable
      simp only [Bool.or_eq_true, Bool.not_eq_true', List.isEmpty_eq_false_iff, List.contains_eq_mem,
        decide_eq_false_iff_not] at unsuitable
      simp only [Lowered.fail_ne_done, false_iff]
      tauto
    · rename_i suitable
      simp only [Bool.or_eq_true, Bool.not_eq_true', List.isEmpty_eq_false_iff, List.contains_eq_mem,
        decide_eq_false_iff_not, not_or, not_not] at suitable
      cases later with
      | nil => simp [not_not.mp place, suitable, name, eq_comm]
      | cons next more => simp

/-- The names of the methods of the class. -/
def Scope.declares (scope : Scope) (name : String) : Prop :=
  name ∈ scope.methods ∨ name ∈ scope.methodsWithParameters

/-- A chain without faults stands in a method. It is a call of a method of the class without parameters, or else one
of the three definitions. -/
theorem lowerChain_eq_done (lowered : lowerChain scope first later = .done instruction) :
    scope.place = .method ∧
      (first.args = [] ∧ first.name.name ∈ scope.methods ∧ later = [] ∧ instruction = .invoke first.name.name ∨
        ¬ scope.declares first.name.name ∧
          (first.name.name = "from" ∧ lowerRoute scope first later = .done instruction ∨
            first.name.name = "rest" ∧ lowerRest scope first later = .done instruction ∨
            first.name.name = "restConfiguration" ∧
              lowerRestConfiguration scope first later = .done instruction)) := by
  unfold lowerChain at lowered
  extract_lets name definition at lowered
  have defined {lower : Scope → ChainCall → List ChainCall → Lowered Instruction}
      (done : definition lower = .done instruction) :
      scope.place = .method ∧ lower scope first later = .done instruction := by
    unfold definition at done
    split at done
    · exact absurd done Lowered.fail_ne_done
    · exact ⟨not_not.mp ‹_›, done⟩
  clear_value definition
  split at lowered
  · obtain ⟨place, args, member, rest, invoked⟩ := lowerInvocation_eq_done_iff.mp lowered
    exact ⟨place, .inl ⟨args, member, rest, invoked⟩⟩
  · rename_i notDeclared
    have notDeclared : ¬ scope.declares name := by simpa [Scope.declares, not_or] using notDeclared
    change scope.place = .method ∧ (_ ∨ ¬ scope.declares name ∧ (name = _ ∧ _ ∨ name = _ ∧ _ ∨ name = _ ∧ _))
    clear_value name
    split at lowered
    · obtain ⟨place, lowered⟩ := defined lowered
      exact ⟨place, .inr ⟨notDeclared, .inl ⟨rfl, lowered⟩⟩⟩
    · obtain ⟨place, lowered⟩ := defined lowered
      exact ⟨place, .inr ⟨notDeclared, .inr (.inl ⟨rfl, lowered⟩)⟩⟩
    · obtain ⟨place, lowered⟩ := defined lowered
      exact ⟨place, .inr ⟨notDeclared, .inr (.inr ⟨rfl, lowered⟩)⟩⟩
    · exact absurd lowered Lowered.fail_ne_done
    · exact absurd lowered Lowered.fail_ne_done

end Chains

/-- The calls that an expression chains, in the order in which they are written; the first is a call on this instance. -/
inductive Expression.Chains : Expression → List ChainCall → Prop
  | call {callee args span} : Chains (.call callee args span) [⟨callee, args, span⟩]
  | callOnThis {at' callee args span} : Chains (.callOn (.this at') callee args span) [⟨callee, args, span⟩]
  | callOn {target calls callee args span} (before : Chains target calls) :
      Chains (.callOn target callee args span) (calls ++ [⟨callee, args, span⟩])

/-- Taking a chain apart finds all of its calls. -/
theorem Expression.chains_of_chainCalls {e : Expression} {calls : List ChainCall} (taken : e.chainCalls = .ok calls) :
    e.Chains calls := by
  fun_induction Expression.chainCalls e generalizing calls with
  | case1 callee args span =>
    obtain rfl := Except.ok.inj taken
    exact .call
  | case2 at' callee args span =>
    obtain rfl := Except.ok.inj taken
    exact .callOnThis
  | case3 target callee args span _ ih =>
    obtain ⟨before, inner, same⟩ := Except.bind_eq_ok_iff.mp taken
    obtain rfl := Except.ok.inj same
    exact .callOn (ih inner)
  | case4 => cases taken

theorem Expression.instruction_eq_done {scope : Scope} {e : Expression} {instruction : Instruction}
    (lowered : e.instruction scope = .done instruction) :
    ∃ first later, e.chainCalls = .ok (first :: later) ∧ lowerChain scope first later = .done instruction := by
  unfold Expression.instruction at lowered
  split at lowered
  · rename_i first later calls
    exact ⟨first, later, calls, lowered⟩
  · exact absurd lowered Lowered.fail_ne_done
  · split at lowered
    · split at lowered
      · exact absurd lowered Lowered.fail_ne_done
      · exact absurd lowered Lowered.fail_ne_done
    · exact absurd lowered Lowered.fail_ne_done

/-! ### Throwing and declaring -/

/-- The message of an exception is a text, or null for none. -/
theorem exceptionMessage_eq_done_iff {scope : Scope} {arg : Expression} {message : Option Operand} :
    exceptionMessage scope arg = .done message ↔
      ∃ operand, arg.operand scope = .done operand ∧
        (operand = .const .null ∧ message = none ∨ operand.type = .str ∧ message = some operand) := by
  simp only [exceptionMessage, Lowered.bind_eq_done_iff]
  refine exists_congr fun operand => and_congr_right fun _ => ?_
  split
  · simp [Operand.type, Value.type, eq_comm]
  · rename_i notNull
    have notNull : operand ≠ .const .null := notNull
    split
    · rename_i text
      simp [text, notNull, eq_comm]
    · rename_i notText
      simp [notText, notNull]

theorem lowerThrow_eq_done {scope : Scope} {value : Expression} {span : Span} {instruction : Instruction}
    (lowered : lowerThrow scope value span = .done instruction) :
    ∃ type args whole, value = .new type args whole ∧
      (args = [] ∧ instruction = .throw type.text none ∨
        ∃ arg more message, args = arg :: more ∧ exceptionMessage scope arg = .done message ∧
          instruction = .throw type.text message) := by
  unfold lowerThrow at lowered
  split at lowered
  · rename_i type args whole
    refine ⟨type, args, whole, rfl, ?_⟩
    split at lowered
    · exact .inl ⟨rfl, (Lowered.done_inj.mp lowered).symm⟩
    · obtain ⟨message, done, rfl⟩ := Lowered.map_eq_done_iff.mp lowered
      exact .inr ⟨_, _, message, rfl, done, rfl⟩
    · obtain ⟨message, done, rfl⟩ := Lowered.map_eq_done_iff.mp lowered
      exact .inr ⟨_, _, message, rfl, done, rfl⟩
    · exact absurd lowered Lowered.fail_ne_done
  · exact absurd lowered Lowered.fail_ne_done

/-- A local variable is declared with the operand of its value, if it has one. -/
theorem lowerDeclaration_eq_done {scope : Scope} {type : TypeName} {name : Ident} {value : Option Expression}
    {locals : List (String × Option Operand)} (lowered : lowerDeclaration scope type name value = .done locals) :
    value = none ∧ locals = (name.name, none) :: scope.locals ∨
      ∃ e operand, value = some e ∧ e.operand scope = .done operand ∧
        locals = (name.name, some operand) :: scope.locals := by
  unfold lowerDeclaration at lowered
  split at lowered
  · exact absurd lowered Lowered.fail_ne_done
  · split at lowered
    · exact .inl ⟨rfl, (Lowered.done_inj.mp lowered).symm⟩
    · rename_i e
      obtain ⟨operand, done, rfl⟩ := Lowered.map_eq_done_iff.mp lowered
      unfold localValue at done
      obtain ⟨operand?, attempted, done⟩ := Lowered.bind_eq_done_iff.mp done
      obtain ⟨value, clean⟩ := Lowered.attempt_eq_done_iff.mp attempted
      obtain ⟨result, found⟩ := e.explained_operand scope clean
      obtain rfl : some result = operand? := by rw [← value, found]; rfl
      simp only [Lowered.bind_eq_done_iff, Lowered.pure_eq_done, Lowered.done_inj] at done
      obtain ⟨_, _, rfl⟩ := done
      exact .inr ⟨e, result, rfl, found, rfl⟩

/-! ### Sequences of statements -/

namespace LoweredBody

theorem followedBy_eq_of_clean {first : LoweredBody} {later : List Statement}
    (clean : (first.followedBy later).faults = []) : first.followedBy later = first := by
  unfold followedBy at *
  split at clean
  · simp at clean
  · rfl

/-- A single statement without faults has its instruction. -/
theorem ofInstruction_eq_of_clean {scope : Scope} {ends : Bool} {lowered : Lowered Instruction}
    (explained : lowered.Explained) (clean : (ofInstruction scope ends lowered).faults = []) :
    ∃ instruction, lowered = .done instruction ∧
      ofInstruction scope ends lowered = ⟨[instruction], ends, scope.locals, []⟩ := by
  obtain ⟨instruction, rfl⟩ := explained clean
  exact ⟨instruction, rfl, rfl⟩

end LoweredBody

/-- Only blanks follow a statement that ends a body without faults. -/
theorem findSome?_span?_of_clean {first : LoweredBody} {later : List Statement}
    (clean : (first.followedBy later).faults = []) : later.findSome? Statement.span? = none := by
  unfold LoweredBody.followedBy at clean
  split at clean
  · simp at clean
  · assumption

/-- Statements without faults come to no more than the first that ends the body. -/
theorem lowerStatements_cons_of_ends {scope : Scope} {statement : Statement} {later : List Statement}
    (ends : (statement.lower scope).ends = true) (clean : (lowerStatements scope (statement :: later)).faults = []) :
    lowerStatements scope (statement :: later) = statement.lower scope := by
  simp only [lowerStatements, ends, if_true] at *
  exact LoweredBody.followedBy_eq_of_clean clean

theorem lowerStatements_cons_of_continues {scope : Scope} {statement : Statement} {later : List Statement}
    (continues : (statement.lower scope).ends = false) :
    lowerStatements scope (statement :: later) =
      let first := statement.lower scope
      let rest := lowerStatements { scope with locals := first.locals } later
      ⟨first.instructions ++ rest.instructions, rest.ends, rest.locals, first.faults ++ rest.faults⟩ := by
  simp [lowerStatements, continues]

/-- When statements are lowered without faults, so is the first of them. -/
theorem clean_of_lowerStatements_cons {scope : Scope} {statement : Statement} {later : List Statement}
    (clean : (lowerStatements scope (statement :: later)).faults = []) : (statement.lower scope).faults = [] := by
  cases ends : (statement.lower scope).ends with
  | true =>
    have same := lowerStatements_cons_of_ends ends clean
    rwa [same] at clean
  | false =>
    rw [lowerStatements_cons_of_continues ends] at clean
    exact (List.append_eq_nil_iff.mp clean).1

/-- What it takes for a property to hold for the instructions of every body without faults, when an invariant holds
for the scope: declarations keep the invariant, and under it the instructions of single statements have the
property. -/
structure BodyProperty (invariant : Scope → Prop) (holds : Instruction → Prop) : Prop where
  declaration : ∀ {scope type name value locals}, invariant scope →
    lowerDeclaration scope type name value = .done locals → invariant { scope with locals }
  returning : holds .return
  throwing : ∀ {scope value span instruction}, invariant scope →
    lowerThrow scope value span = .done instruction → holds instruction
  expression : ∀ {scope} {e : Expression} {instruction}, invariant scope →
    e.instruction scope = .done instruction → holds instruction

section Forall

variable {invariant : Scope → Prop} {holds : Instruction → Prop}

mutual

theorem Statement.forall_lower (property : BodyProperty invariant holds) (scope : Scope) (valid : invariant scope)
    (s : Statement) (clean : (s.lower scope).faults = []) :
    (∀ i ∈ (s.lower scope).instructions, holds i) ∧ invariant { scope with locals := (s.lower scope).locals } := by
  cases s with
  | empty =>
    rw [Statement.lower]
    exact ⟨by simp, valid⟩
  | block body span =>
    rw [Statement.lower] at clean ⊢
    exact ⟨(forall_lowerStatements property scope valid body clean).1, valid⟩
  | «return» span =>
    rw [Statement.lower]
    exact ⟨List.forall_mem_singleton.mpr property.returning, valid⟩
  | throw value span =>
    rw [Statement.lower] at clean ⊢
    obtain ⟨i, lowered, same⟩ := LoweredBody.ofInstruction_eq_of_clean (explained_lowerThrow _ _ _) clean
    rw [same]
    exact ⟨List.forall_mem_singleton.mpr (property.throwing valid lowered), valid⟩
  | expression e =>
    rw [Statement.lower] at clean ⊢
    obtain ⟨i, lowered, same⟩ := LoweredBody.ofInstruction_eq_of_clean (e.explained_instruction _) clean
    rw [same]
    exact ⟨List.forall_mem_singleton.mpr (property.expression valid lowered), valid⟩
  | declare type name value =>
    rw [Statement.lower] at clean ⊢
    obtain ⟨locals, lowered⟩ := explained_lowerDeclaration scope type name value clean
    rw [lowered]
    exact ⟨by simp, property.declaration valid lowered⟩

theorem forall_lowerStatements (property : BodyProperty invariant holds) (scope : Scope) (valid : invariant scope)
    (body : List Statement) (clean : (lowerStatements scope body).faults = []) :
    (∀ i ∈ (lowerStatements scope body).instructions, holds i) ∧
      invariant { scope with locals := (lowerStatements scope body).locals } := by
  cases body with
  | nil =>
    rw [lowerStatements]
    exact ⟨by simp, valid⟩
  | cons statement later =>
    cases ends : (statement.lower scope).ends with
    | true =>
      have same := lowerStatements_cons_of_ends ends clean
      rw [same] at clean ⊢
      exact statement.forall_lower property scope valid clean
    | false =>
      rw [lowerStatements_cons_of_continues ends] at clean ⊢
      obtain ⟨firstClean, laterClean⟩ := List.append_eq_nil_iff.mp clean
      obtain ⟨first, valid⟩ := statement.forall_lower property scope valid firstClean
      obtain ⟨rest, valid⟩ := forall_lowerStatements property _ valid later laterClean
      exact ⟨List.forall_mem_append.mpr ⟨first, rest⟩, valid⟩

end

/-- A property holds for all instructions of a body that is lowered without faults. -/
theorem Block.forall_lower (property : BodyProperty invariant holds) {scope : Scope} (valid : invariant scope)
    {b : Block} {instructions : List Instruction} (lowered : b.lower scope = .done instructions) :
    ∀ i ∈ instructions, holds i := by
  obtain ⟨value, clean⟩ := Lowered.eq_done_iff.mp lowered
  obtain rfl := Option.some.inj value
  exact (forall_lowerStatements property scope valid b.body clean).1

end Forall

end RouteDepot.RouteClass
