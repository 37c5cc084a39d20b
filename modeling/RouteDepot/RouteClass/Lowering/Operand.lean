import RouteDepot.RouteClass.Lowering.Lowered
import RouteDepot.RouteClass.Syntax

/-! # Operands

Lowering an expression resolves its names, checks its types and folds its constants. The operands that come out
mention no names: a field stands for its constant value and a local variable for the operand it was declared with.
-/

namespace RouteDepot.RouteClass

/-- Where an expression stands: in a field, in a constructor or in a method. -/
inductive Place where
  | field | constructor | method
  deriving DecidableEq, Repr

/-- What the names of an expression may refer to. -/
structure Scope where
  /-- The simple name of the class. -/
  className : String
  /-- The fields that may be used, with their values. -/
  fields : List (String × Value) := []
  /-- The methods without parameters. -/
  methods : List String := []
  /-- The methods with parameters. -/
  methodsWithParameters : List String := []
  place : Place := .field
  /-- The method or constructor whose body this is. -/
  body : String := ""
  /-- The local variables, the last one first; one without an initial value has no operand. -/
  locals : List (String × Option Operand) := []

/-- The names of the binding modes in route code. -/
def bindingModeNames : List String := ["off", "auto", "json", "xml", "json_xml"]

namespace Operand

/-- Joins neighbouring constants into one text each. -/
def mergeConstants : List Operand → List Operand
  | .const a :: .const b :: later => mergeConstants (.const (.str (a.display ++ b.display)) :: later)
  | part :: later => part :: mergeConstants later
  | [] => []
termination_by parts => parts.length

/-- The parts of a concatenation; any other operand is its own only part. -/
def parts : Operand → List Operand
  | concat parts => parts
  | operand => [operand]

/-- The operand for the texts of two operands one after the other. -/
def append (left right : Operand) : Operand :=
  match mergeConstants (left.parts ++ right.parts) with
  | [] => .const (.str "")
  | [.const value] => .const (.str value.display)
  | [part] => part
  | parts => .concat parts

/-- The operand for a sum: two integers are added, and a sum with a text in it is a text. -/
def plus (span : Span) (left right : Operand) : Lowered Operand :=
  match left, right with
  | .const (.int a), .const (.int b) => .done (.const (.int (a + b)))
  | left, right =>
    if left.type = .str ∨ right.type = .str then .done (left.append right)
    else .fail span (.badOperands left.type right.type)

/-- Checks an operand as an argument of a method that accepts the given types. -/
def checkArgument (method : String) (accepted : List ValueType) (span : Span) (operand : Operand) :
    Lowered Operand :=
  if operand.type = .null then .fail span (.nullArgument method)
  else if operand.type ∈ accepted then .done operand
  else .fail span (.incompatible operand.type (" or ".intercalate (accepted.map ValueType.name)))

end Operand

/-- The value of a literal. -/
def Literal.value : Literal → Value
  | .str value => .str value
  | .char value => .str value.toString
  | .int value => .int (Int64.ofNat value)
  | .bool value => .bool value
  | .null => .null

namespace Scope

/-- The operand that a field stands for. -/
def field (scope : Scope) (name : Ident) : Lowered Operand :=
  match scope.fields.lookup name.name with
  | some value => .done (.const value)
  | none => .fail name.span (.unknownVariable name.name)

/-- The operand that a name stands for: a local variable, or else a field. -/
def resolve (scope : Scope) (name : Ident) : Lowered Operand :=
  match scope.locals.lookup name.name with
  | some (some operand) => .done operand
  | some none => .fail name.span (.notInitialized name.name)
  | none => scope.field name

end Scope

namespace Expression

/-- Whether an expression is a call of `getContext` without arguments on this instance. -/
def isGetContext : Expression → Bool
  | .call callee args _ => callee.name == "getContext" && args.isEmpty
  | .callOn (.this _) callee args _ => callee.name == "getContext" && args.isEmpty
  | _ => false

/-- The operand that an expression stands for. -/
def operand (scope : Scope) : Expression → Lowered Operand
  | .literal value _ => .done (.const value.value)
  | .name ident => scope.resolve ident
  | .this span => .fail span .thisAsValue
  | .field (.this _) member => scope.field member
  | .field (.name owner) member =>
    if owner.name = "RestBindingMode" then
      if member.name ∈ bindingModeNames then .done (.const (.str member.name))
      else .fail member.span (.unknownBindingMode member.name)
    else .fail (Expression.field (.name owner) member).span .unsupportedField
  | .field target member => .fail (Expression.field target member).span .unsupportedField
  | .callOn target callee args span =>
    if callee.name = "resolvePropertyPlaceholders" ∧ target.isGetContext then
      if scope.place ≠ .method then .fail span .contextUnavailable
      else match args with
        | [arg] => do
          let text ← (arg.operand scope)
          return .placeholders (← text.checkArgument callee.name [.str] arg.span)
        | args => .fail span (.wrongArity callee.name 1 args.length)
    else .fail callee.span (.methodAsValue callee.name)
  | .call callee _ _ => .fail callee.span (.methodAsValue callee.name)
  | .new _ _ span => .fail span .creationAsValue
  | .concat left right => do
    let (l, r) ← (left.operand scope).both (right.operand scope)
    l.plus (Expression.concat left right).span r

end Expression

end RouteDepot.RouteClass
