import RouteDepot.Proofs.Layout.Operands
import RouteDepot.RouteClass.Lowering.Body

/-! # Lowering aligned statements

Aligned calls say the same about routes, REST services and REST configurations. The bodies that aligned statements make
up have the same instructions and end at the same place.
-/

namespace RouteDepot.RouteClass

variable {R : Span → Span → Prop}

open Lowered (alike_done alike_fail alike_report)

theorem Expression.Aligned.argument {e e' : Expression} (aligned : e.Aligned R e') (scope : Scope) (method : String)
    (accepted : List ValueType) : (scope.argument method accepted e).Alike R (scope.argument method accepted e') :=
  (aligned.operand scope).bind fun _ => Operand.alike_checkArgument aligned.spans _ _ _

namespace ChainCall

/-- The call that follows in the chain, if any, in two places. -/
abbrev NextAligned (R : Span → Span → Prop) : Option ChainCall → Option ChainCall → Prop :=
  Option.Rel (ChainCall.Aligned R)

namespace Aligned

variable {call call' : ChainCall} {next next' : Option ChainCall}

/-! ### Arguments -/

theorem arityFault {α : Type} (aligned : call.Aligned R call') (expected : Nat) :
    (call.arityFault expected : Lowered α).Alike R (call'.arityFault expected) := by
  rw [ChainCall.arityFault, ChainCall.arityFault, aligned.names.name, aligned.arguments.length_eq]
  exact alike_fail aligned.spans

theorem single (aligned : call.Aligned R call') (scope : Scope) (accepted : List ValueType) :
    (call.single scope accepted).Alike R (call'.single scope accepted) := by
  have wrong := aligned.arityFault (α := Operand) 1
  obtain ⟨names, arguments, _⟩ := aligned
  unfold ChainCall.single
  rw [names.name]
  generalize call.args = args, call'.args = args' at arguments ⊢
  match arguments with
  | .nil => exact wrong
  | .cons first .nil => exact first.argument scope _ _
  | .cons _ (.cons _ _) => exact wrong

theorem optional (aligned : call.Aligned R call') (scope : Scope) (accepted : List ValueType) :
    (call.optional scope accepted).Alike R (call'.optional scope accepted) := by
  have wrong := aligned.arityFault (α := Option Operand) 1
  obtain ⟨names, arguments, _⟩ := aligned
  unfold ChainCall.optional
  rw [names.name]
  generalize call.args = args, call'.args = args' at arguments ⊢
  match arguments with
  | .nil => exact alike_done _
  | .cons first .nil => exact (first.argument scope _ _).map _
  | .cons _ (.cons _ _) => exact wrong

theorem texts (aligned : call.Aligned R call') (scope : Scope) : (call.texts scope).Alike R (call'.texts scope) := by
  have wrong := aligned.arityFault (α := List Operand) 1
  obtain ⟨names, arguments, _⟩ := aligned
  unfold ChainCall.texts
  rw [names.name]
  generalize call.args = args, call'.args = args' at arguments ⊢
  match arguments with
  | .nil => exact wrong
  | .cons first more => exact .all_map (.cons first more) fun _ _ argument => argument.argument scope _ _

theorem textPair (aligned : call.Aligned R call') (scope : Scope) :
    (call.textPair scope).Alike R (call'.textPair scope) := by
  have wrong := aligned.arityFault (α := Operand × Operand) 2
  obtain ⟨names, arguments, _⟩ := aligned
  unfold ChainCall.textPair
  rw [names.name]
  generalize call.args = args, call'.args = args' at arguments ⊢
  match arguments with
  | .cons first (.cons second .nil) => exact (first.argument scope _ _).both (second.argument scope _ _)
  | .nil => exact wrong
  | .cons _ .nil => exact wrong
  | .cons _ (.cons _ (.cons _ _)) => exact wrong

theorem close {α : Type} (aligned : call.Aligned R call') (scope : Scope) :
    (call.close scope : Lowered (Option α)).Alike R (call'.close scope) := by
  refine .map _ ?_
  rw [ChainCall.arguments, ChainCall.arguments, aligned.arguments.length_eq, List.zip_nil_right, List.zip_nil_right]
  split
  · exact alike_done []
  · exact aligned.arityFault _

/-! ### Clauses -/

theorem clause (aligned : call.Aligned R call') (scope : Scope) : (call.clause scope).Alike R (call'.clause scope) := by
  rw [ChainCall.clause, ChainCall.clause, aligned.names.name]
  split
  · exact (aligned.single scope _).map _
  · exact alike_fail aligned.names.spans

theorem trailingClause (aligned : call.Aligned R call') (scope : Scope) (following : NextAligned R next next') :
    (call.trailingClause scope next).Alike R (call'.trailingClause scope next') := by
  cases following with
  | none =>
    rw [ChainCall.trailingClause, ChainCall.trailingClause, aligned.names.name]
    exact alike_fail aligned.spans
  | some following => exact following.clause scope

theorem inlineClause (aligned : call.Aligned R call') (scope : Scope) {e e' : Expression}
    (argument : e.Aligned R e') : (call.inlineClause scope e).Alike R (call'.inlineClause scope e') := by
  have spans := argument.spans
  cases argument with
  | call callees arguments spans => exact clause ⟨callees, arguments, spans⟩ scope
  | _ =>
    simp only [ChainCall.inlineClause, aligned.names.name]
    exact alike_fail spans

theorem takesNext_eq (aligned : call.Aligned R call') : call.takesNext = call'.takesNext := by
  rw [takesNext, takesNext, aligned.names.name, aligned.arguments.isEmpty_eq,
    aligned.arguments.length_eq]

theorem onlyClause (aligned : call.Aligned R call') (scope : Scope) (following : NextAligned R next next') :
    (call.onlyClause scope next).Alike R (call'.onlyClause scope next') := by
  have wrong := aligned.arityFault (α := ClauseOperand) 1
  have trailing := aligned.trailingClause scope following
  have inline {e e' : Expression} (argument : e.Aligned R e') := aligned.inlineClause scope argument
  obtain ⟨names, arguments, _⟩ := aligned
  unfold ChainCall.onlyClause
  generalize call.args = args, call'.args = args' at arguments ⊢
  match arguments with
  | .nil => exact trailing
  | .cons first .nil => exact inline first
  | .cons _ (.cons _ _) => exact wrong

theorem headerClause (aligned : call.Aligned R call') (scope : Scope) (following : NextAligned R next next') :
    (call.headerClause scope next).Alike R (call'.headerClause scope next') := by
  have trailing := aligned.trailingClause scope following
  have inline {e e' : Expression} (argument : e.Aligned R e') := aligned.inlineClause scope argument
  have arity := aligned.arityFault (α := ClauseOperand) 2
  have missing := aligned.arityFault (α := Operand × ClauseOperand) 2
  obtain ⟨names, arguments, _⟩ := aligned
  unfold ChainCall.headerClause
  rw [names.name]
  generalize call.args = args, call'.args = args' at arguments ⊢
  match arguments with
  | .nil => exact missing
  | .cons first .nil => exact (first.argument scope _ _).both trailing
  | .cons first (.cons second .nil) => exact (first.argument scope _ _).both (inline second)
  | .cons first (.cons _ (.cons _ _)) => exact (first.argument scope _ _).both arity

/-! ### Definitions -/

theorem routeCall (aligned : call.Aligned R call') (scope : Scope) (following : NextAligned R next next') :
    (call.routeCall scope next).Alike R (call'.routeCall scope next') := by
  unfold ChainCall.routeCall
  rw [aligned.names.name]
  split
  iterate 3 exact ((aligned.single scope _).map _).map _
  · exact ((aligned.texts scope).map _).map _
  iterate 3 exact ((aligned.single scope _).map _).map _
  iterate 3 exact ((aligned.onlyClause scope following).map _).map _
  · exact (aligned.headerClause scope following).map _
  · exact aligned.close scope
  · exact alike_fail aligned.names.spans

theorem restCall (aligned : call.Aligned R call') (scope : Scope) :
    (call.restCall scope).Alike R (call'.restCall scope) := by
  unfold ChainCall.restCall
  rw [aligned.names.name]
  split
  · exact ((aligned.optional scope _).map _).map _
  · split
    iterate 4 exact ((aligned.single scope _).map _).map _
    · exact aligned.close scope
    · exact alike_fail aligned.names.spans

theorem configurationCall (aligned : call.Aligned R call') (scope : Scope) :
    (call.configurationCall scope).Alike R (call'.configurationCall scope) := by
  unfold ChainCall.configurationCall
  rw [aligned.names.name]
  split
  · exact ((aligned.single scope _).map _).map _
  · exact (aligned.textPair scope).map _
  · split
    · exact aligned.close scope
    · exact alike_fail aligned.names.spans

end Aligned

end ChainCall

section Chains

variable {first first' : ChainCall} {later later' : List ChainCall}

theorem withClauses_aligned {later later' : List ChainCall}
    (aligned : List.Forall₂ (ChainCall.Aligned R) later later') :
    List.Forall₂ (fun pair pair' => pair.1.Aligned R pair'.1 ∧ ChainCall.NextAligned R pair.2 pair'.2)
      (withClauses later) (withClauses later') := by
  match aligned with
  | .nil => exact .nil
  | .cons call .nil => exact .cons ⟨call, .none⟩ .nil
  | .cons call (.cons next more) =>
    rw [withClauses, withClauses, call.takesNext_eq]
    split
    · exact .cons ⟨call, .some next⟩ (withClauses_aligned more)
    · exact .cons ⟨call, .none⟩ (withClauses_aligned (.cons next more))
termination_by later.length

theorem lowerRoute_alike (scope : Scope) (begins : first.Aligned R first')
    (goesOn : List.Forall₂ (ChainCall.Aligned R) later later') :
    (lowerRoute scope first later).Alike R (lowerRoute scope first' later') :=
  (begins.single scope _).bind fun _ =>
    (Lowered.Alike.all_map (withClauses_aligned goesOn) fun _ _ pair => pair.1.routeCall scope pair.2).map _

theorem lowerRest_alike (scope : Scope) (begins : first.Aligned R first')
    (goesOn : List.Forall₂ (ChainCall.Aligned R) later later') :
    (lowerRest scope first later).Alike R (lowerRest scope first' later') :=
  (begins.optional scope _).bind fun _ => (Lowered.Alike.all_map goesOn fun _ _ call => call.restCall scope).map _

theorem lowerRestConfiguration_alike (scope : Scope) (begins : first.Aligned R first')
    (goesOn : List.Forall₂ (ChainCall.Aligned R) later later') :
    (lowerRestConfiguration scope first later).Alike R (lowerRestConfiguration scope first' later') :=
  (begins.optional scope _).bind fun _ =>
    (Lowered.Alike.all_map goesOn fun _ _ call => call.configurationCall scope).map _

theorem lowerInvocation_alike (scope : Scope) (begins : first.Aligned R first')
    (goesOn : List.Forall₂ (ChainCall.Aligned R) later later') :
    (lowerInvocation scope first later).Alike R (lowerInvocation scope first' later') := by
  unfold lowerInvocation
  rw [begins.names.name, begins.arguments.isEmpty_eq]
  dsimp only
  split
  · exact alike_fail begins.names.spans
  · split
    · exact alike_fail begins.spans
    · cases goesOn with
      | nil => exact alike_done _
      | cons next => exact alike_fail next.names.spans

theorem lowerChain_alike (scope : Scope) (begins : first.Aligned R first')
    (goesOn : List.Forall₂ (ChainCall.Aligned R) later later') :
    (lowerChain scope first later).Alike R (lowerChain scope first' later') := by
  have definition {lowered lowered' : Lowered Instruction} (alike : lowered.Alike R lowered') :
      (if scope.place ≠ .method then .fail first.name.span (.definitionInConstructor first'.name.name)
        else lowered).Alike R
      (if scope.place ≠ .method then .fail first'.name.span (.definitionInConstructor first'.name.name)
        else lowered') := by
    split
    · exact alike_fail begins.names.spans
    · exact alike
  unfold lowerChain
  rw [begins.names.name]
  dsimp only
  split
  · exact lowerInvocation_alike scope begins goesOn
  · split
    · exact definition (lowerRoute_alike scope begins goesOn)
    · exact definition (lowerRest_alike scope begins goesOn)
    · exact definition (lowerRestConfiguration_alike scope begins goesOn)
    · exact alike_fail begins.spans
    · exact alike_fail begins.names.spans

end Chains

/-! ### Statements -/

namespace Expression.Aligned

theorem root {e e' : Expression} (aligned : e.Aligned R e') : e.root.Aligned R e'.root := by
  match aligned with
  | .callOn targets _ _ _ => exact targets.root
  | .field targets _ _ => exact targets.root
  | .literal value spans => exact .literal value spans
  | .name idents => exact .name idents
  | .this spans => exact .this spans
  | .call callees arguments spans => exact .call callees arguments spans
  | .new types arguments spans => exact .new types arguments spans
  | .concat lefts rights spans => exact .concat lefts rights spans
termination_by e

theorem isCall_eq {e e' : Expression} (aligned : e.Aligned R e') : e.isCall = e'.isCall := by
  cases aligned <;> rfl

theorem instruction {e e' : Expression} (aligned : e.Aligned R e') (scope : Scope) :
    (e.instruction scope).Alike R (e'.instruction scope) := by
  have chains := aligned.chainCalls
  unfold Expression.instruction
  generalize e.chainCalls = chain, e'.chainCalls = chain' at chains
  cases chains with
  | ok calls =>
    cases calls with
    | nil => exact alike_fail aligned.spans
    | cons begins goesOn => exact lowerChain_alike scope begins goesOn
  | error spans =>
    dsimp only
    rw [aligned.isCall_eq]
    split
    · have roots := aligned.root
      generalize e.root = root, e'.root = root' at roots
      cases roots with
      | name idents =>
        dsimp only
        rw [idents.name]
        exact alike_fail spans
      | _ => exact alike_fail spans
    · exact alike_fail aligned.spans

theorem exceptionMessage {e e' : Expression} (aligned : e.Aligned R e') (scope : Scope) :
    (RouteClass.exceptionMessage scope e).Alike R (RouteClass.exceptionMessage scope e') := by
  refine (aligned.operand scope).bind fun operand => ?_
  split
  · exact alike_done _
  · split
    · exact alike_done _
    · exact alike_fail aligned.spans

theorem lowerThrow {e e' : Expression} (aligned : e.Aligned R e') (scope : Scope) {span span' : Span}
    (spans : R span span') :
    (RouteClass.lowerThrow scope e span).Alike R (RouteClass.lowerThrow scope e' span') := by
  cases aligned with
  | @new n k _ _ _ _ types arguments whole =>
    have same : n.text = k.text := congrArg (".".intercalate ·) types
    unfold RouteClass.lowerThrow
    dsimp only
    rw [same]
    match arguments with
    | .nil => exact alike_done _
    | .cons first .nil => exact (first.exceptionMessage scope).map _
    | .cons first (.cons _ .nil) => exact (first.exceptionMessage scope).map _
    | .cons _ (.cons _ (.cons _ _)) => exact alike_fail whole
  | _ => exact alike_fail spans

end Expression.Aligned

namespace TypeName

variable {type type' : TypeName}

theorem text_eq (types : type.erase = type'.erase) : type.name.text = type'.name.text := by
  change type.erase.name.text = type'.erase.name.text
  rw [types]

theorem isArray_eq (types : type.erase = type'.erase) : type.isArray = type'.isArray := by
  change type.erase.isArray = type'.erase.isArray
  rw [types]

theorem checkValue_alike {span span' : Span} (types : type.erase = type'.erase) (spans : R span span')
    (found : ValueType) : (type.checkValue span found).Alike R (type'.checkValue span' found) := by
  have same : type.valueType? = type'.valueType? := by rw [valueType?, valueType?, text_eq types, isArray_eq types]
  rw [checkValue, checkValue, same, text_eq types]
  split
  · exact alike_done _
  · split
    · exact alike_done _
    · exact alike_report spans

end TypeName

theorem localValue_alike {e e' : Expression} (aligned : e.Aligned R e') (scope : Scope) {type type' : TypeName}
    (types : type.erase = type'.erase) : (localValue scope type e).Alike R (localValue scope type' e') := by
  refine (aligned.operand scope).attempt.bind fun operand? => ?_
  cases operand? with
  | none => exact alike_done _
  | some operand => exact (TypeName.checkValue_alike types aligned.spans _).bind fun _ => alike_done _

theorem lowerDeclaration_alike (scope : Scope) {type type' : TypeName} {i j : Ident}
    {value value' : Option Expression} (types : type.erase = type'.erase) (names : i.Aligned R j)
    (values : Option.Rel (Expression.Aligned R) value value') :
    (lowerDeclaration scope type i value).Alike R (lowerDeclaration scope type' j value') := by
  unfold lowerDeclaration
  rw [names.name]
  split
  · exact alike_fail names.spans
  · cases values with
    | none => exact alike_done _
    | some aligned => exact (localValue_alike aligned scope types).map _

/-! ### Sequences of statements -/

/-- The same instructions and locals from two sequences of statements, with alike faults. -/
structure LoweredBody.Alike (R : Span → Span → Prop) (b b' : LoweredBody) : Prop where
  instructions : b.instructions = b'.instructions
  ends : b.ends = b'.ends
  locals : b.locals = b'.locals
  faults : List.Forall₂ (Finding.Alike R) b.faults b'.faults

namespace LoweredBody

theorem alike_ofInstruction (scope : Scope) (ends : Bool) {l l' : Lowered Instruction} (alike : l.Alike R l') :
    (ofInstruction scope ends l).Alike R (ofInstruction scope ends l') :=
  ⟨congrArg Option.toList alike.values, rfl, rfl, alike.faults⟩

theorem Alike.andThen {first first' rest rest' : LoweredBody} (alike : first.Alike R first')
    (later : rest.Alike R rest') :
    Alike R ⟨first.instructions ++ rest.instructions, rest.ends, rest.locals, first.faults ++ rest.faults⟩
      ⟨first'.instructions ++ rest'.instructions, rest'.ends, rest'.locals, first'.faults ++ rest'.faults⟩ :=
  ⟨congrArg₂ (· ++ ·) alike.instructions later.instructions, later.ends, later.locals,
    List.rel_append alike.faults later.faults⟩

theorem Alike.followedBy {first first' : LoweredBody} (alike : first.Alike R first') {later later' : List Statement}
    (aligned : List.Forall₂ (Statement.Aligned R) later later') :
    (first.followedBy later).Alike R (first'.followedBy later') := by
  have spans : Option.Rel R (later.findSome? Statement.span?) (later'.findSome? Statement.span?) := by
    induction aligned with
    | nil => exact .none
    | @cons statement statement' _ _ statements _ ih =>
      rw [List.findSome?_cons, List.findSome?_cons]
      have spans := statements.spans
      generalize statement.span? = span, statement'.span? = span' at spans
      cases spans with
      | none => exact ih
      | some spans => exact .some spans
  unfold LoweredBody.followedBy
  generalize later.findSome? Statement.span? = span, later'.findSome? Statement.span? = span' at spans
  cases spans with
  | none => exact alike
  | some spans =>
    exact ⟨alike.instructions, alike.ends, alike.locals, List.rel_append alike.faults (.cons ⟨rfl, spans⟩ .nil)⟩

end LoweredBody

mutual

theorem Statement.Aligned.lower {s s' : Statement} (aligned : s.Aligned R s') (scope : Scope) :
    (s.lower scope).Alike R (s'.lower scope) := by
  match aligned with
  | .empty =>
    rw [Statement.lower]
    exact ⟨rfl, rfl, rfl, .nil⟩
  | .block bodies _ =>
    rw [Statement.lower, Statement.lower]
    have body := lowerStatements_alike bodies scope
    exact ⟨body.instructions, body.ends, rfl, body.faults⟩
  | .return _ =>
    rw [Statement.lower, Statement.lower]
    exact LoweredBody.alike_ofInstruction _ _ (alike_done _)
  | .throw values spans =>
    rw [Statement.lower, Statement.lower]
    exact LoweredBody.alike_ofInstruction _ _ (values.lowerThrow scope spans)
  | .declare types names values =>
    rw [Statement.lower, Statement.lower]
    have declared := lowerDeclaration_alike scope types names values
    exact ⟨rfl, rfl, congrArg (Option.getD · scope.locals) declared.values, declared.faults⟩
  | .expression values =>
    rw [Statement.lower, Statement.lower]
    exact LoweredBody.alike_ofInstruction _ _ (values.instruction scope)
termination_by sizeOf s

theorem lowerStatements_alike {statements statements' : List Statement}
    (aligned : List.Forall₂ (Statement.Aligned R) statements statements') (scope : Scope) :
    (lowerStatements scope statements).Alike R (lowerStatements scope statements') := by
  match aligned with
  | .nil =>
    rw [lowerStatements]
    exact ⟨rfl, rfl, rfl, .nil⟩
  | .cons statement later =>
    rw [lowerStatements, lowerStatements]
    have first := statement.lower scope
    rw [← first.ends, ← first.locals]
    split
    · exact first.followedBy later
    · exact first.andThen (lowerStatements_alike later _)
termination_by sizeOf statements

end

theorem Block.Aligned.lower {b b' : Block} (aligned : b.Aligned R b') (scope : Scope) :
    (b.lower scope).Alike R (b'.lower scope) :=
  have body := lowerStatements_alike aligned.bodies scope
  ⟨congrArg some body.instructions, body.faults⟩

end RouteDepot.RouteClass
