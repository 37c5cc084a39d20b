import RouteDepot.RouteClass.Lowering.Operand

/-! # Chains of calls

A statement of route code is a chain of calls, each on the result of the one before. Here a chain is taken apart
into its calls, and the arguments of a call are checked.
-/

namespace RouteDepot.RouteClass

/-- One call of a chain. -/
structure ChainCall where
  name : Ident
  args : List Expression
  span : Span
  deriving Repr

namespace Expression

/-- The calls of a chain, the first one first. A chain begins with a call on this instance; otherwise the bytes
of what it begins with are reported. -/
def chainCalls : Expression → Except Span (List ChainCall)
  | .call callee args span => .ok [⟨callee, args, span⟩]
  | .callOn (.this _) callee args span => .ok [⟨callee, args, span⟩]
  | .callOn target callee args span => return (← target.chainCalls) ++ [⟨callee, args, span⟩]
  | other => .error other.span

/-- What a chain of calls and field names begins with. -/
def root : Expression → Expression
  | .callOn target _ _ _ | .field target _ => target.root
  | other => other

/-- Whether an expression is a call. -/
def isCall : Expression → Bool
  | .call .. | .callOn .. => true
  | _ => false

end Expression

/-- The operand of an argument of a method that accepts the given types. -/
def Scope.argument (scope : Scope) (method : String) (accepted : List ValueType) (arg : Expression) :
    Lowered Operand := do
  (← arg.operand scope).checkArgument method accepted arg.span

namespace ChainCall

/-- The fault of a call with another number of arguments than expected. -/
def arityFault {α : Type} (call : ChainCall) (expected : Nat) : Lowered α :=
  .fail call.span (.wrongArity call.name.name expected call.args.length)

/-- The operands of the arguments; there must be one for each list of accepted types. -/
def arguments (call : ChainCall) (scope : Scope) (accepted : List (List ValueType)) :
    Lowered (List Operand) :=
  if call.args.length = accepted.length then
    .all ((call.args.zip accepted).map fun (arg, types) => scope.argument call.name.name types arg)
  else call.arityFault accepted.length

/-- The operand of the only argument. -/
def single (call : ChainCall) (scope : Scope) (accepted : List ValueType) : Lowered Operand :=
  match call.args with
  | [arg] => scope.argument call.name.name accepted arg
  | _ => call.arityFault 1

/-- The operand of the only argument, if there is one. -/
def optional (call : ChainCall) (scope : Scope) (accepted : List ValueType) : Lowered (Option Operand) :=
  match call.args with
  | [] => .done none
  | [arg] => some <$> scope.argument call.name.name accepted arg
  | _ => call.arityFault 1

/-- The operands of one or more text arguments. -/
def texts (call : ChainCall) (scope : Scope) : Lowered (List Operand) :=
  match call.args with
  | [] => call.arityFault 1
  | args => .all (args.map (scope.argument call.name.name [.str]))

/-- The operands of two text arguments. -/
def textPair (call : ChainCall) (scope : Scope) : Lowered (Operand × Operand) :=
  match call.args with
  | [key, value] =>
    .both (scope.argument call.name.name [.str] key) (scope.argument call.name.name [.str] value)
  | _ => call.arityFault 2

/-- A call that closes the last definition; it says nothing. -/
def close {α : Type} (call : ChainCall) (scope : Scope) : Lowered (Option α) :=
  (fun _ => none) <$> call.arguments scope []

end ChainCall

end RouteDepot.RouteClass
