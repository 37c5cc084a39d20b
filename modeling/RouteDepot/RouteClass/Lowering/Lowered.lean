import RouteDepot.Diagnostic
import RouteDepot.RouteClass.Program

/-! # Results of lowering

Lowering turns syntax into instructions and reports every fault of meaning that it meets. A result may lack its
value, and then at least one fault says why; a value may also come with faults. Two results can be combined so
that both are looked at, whether or not the first has a value.
-/

namespace RouteDepot.RouteClass

/-- What can be wrong with the meaning of a source whose syntax is in order. -/
inductive SemanticFault where
  | missingPackage (expected : String)
  | packageMismatch (found unitName : String)
  | duplicateClass (name : String)
  | classNotFound (name unitName : String)
  | unknownClass (name : String)
  | duplicateMethod (name className : String)
  | duplicateField (name className : String)
  | duplicateConstructor (className : String)
  | missingBody
  | abstractBody
  | notOverridden (className method owner : String)
  | configureResult (className type : String)
  | notConstant
  | incompatible (found : ValueType) (expected : String)
  | unreachable
  | duplicateLocal (name method : String)
  | notInitialized (name : String)
  | unknownVariable (name : String)
  | unsupportedThrow
  | noSuitableConstructor (name : String)
  | unsupportedReceiver
  | notAStatement
  | definitionInConstructor (name : String)
  | methodInConstructor (name : String)
  | misusedContext
  | unknownMethod (name owner : String)
  | argumentsToMethod (name : String)
  | voidDereferenced
  | wrongArity (method : String) (expected found : Nat)
  | nullArgument (method : String)
  | missingClause (method : String)
  | clauseExpected (method : String)
  | unknownClause (found : String)
  | unknownBindingMode (name : String)
  | unsupportedField
  | contextUnavailable
  | methodAsValue (name : String)
  | creationAsValue
  | thisAsValue
  | badOperands (left right : ValueType)
  deriving DecidableEq, Repr

/-- The wording of a fault of meaning. -/
def SemanticFault.message : SemanticFault → String
  | missingPackage expected => s!"missing package declaration: expected 'package {expected};'"
  | packageMismatch found unitName => s!"package '{found}' does not match unit name '{unitName}'"
  | duplicateClass name => s!"duplicate class: {name}"
  | classNotFound name unitName => s!"class '{name}' not found in unit '{unitName}'"
  | unknownClass name => s!"cannot find symbol: class {name}"
  | duplicateMethod name className => s!"method {name}() is already defined in class {className}"
  | duplicateField name className => s!"variable {name} is already defined in class {className}"
  | duplicateConstructor className => s!"constructor {className}() is already defined in class {className}"
  | missingBody => "missing method body, or declare abstract"
  | abstractBody => "abstract methods cannot have a body"
  | notOverridden className method owner =>
    s!"{className} is not abstract and does not override abstract method {method}() in {owner}"
  | configureResult className type =>
    s!"configure() in {className} cannot override configure() in RouteBuilder: return type {type} " ++
      "is not compatible with void"
  | notConstant => "field initializer must be a constant expression"
  | incompatible found expected => s!"incompatible types: {found.name} cannot be converted to {expected}"
  | unreachable => "unreachable statement"
  | duplicateLocal name method => s!"variable {name} is already defined in method {method}()"
  | notInitialized name => s!"variable {name} might not have been initialized"
  | unknownVariable name => s!"cannot find symbol: variable {name}"
  | unsupportedThrow => "unsupported throw expression: expected 'throw new <Exception>(...)'"
  | noSuitableConstructor name => s!"no suitable constructor found for {name}"
  | unsupportedReceiver => "unsupported method call target"
  | notAStatement => "not a statement"
  | definitionInConstructor name => s!"{name}() cannot be called from a constructor"
  | methodInConstructor name => s!"method {name}() cannot be called from a constructor"
  | misusedContext => "getContext() may only be used to resolve property placeholders in arguments"
  | unknownMethod name owner => s!"cannot find symbol: method {name}() in {owner}"
  | argumentsToMethod name => s!"calling method {name}() with arguments is not supported"
  | voidDereferenced => "void cannot be dereferenced"
  | wrongArity method expected found =>
    let arguments := if expected = 1 then "argument" else "arguments"
    s!"method {method} cannot be applied to given types: expected {expected} {arguments}, found {found}"
  | nullArgument method => s!"null is not a valid argument of {method}()"
  | missingClause method =>
    s!"{method}() must be followed by an expression clause (constant, simple or header)"
  | clauseExpected method => s!"{method}() expects an expression clause (constant, simple or header)"
  | unknownClause found => s!"expected expression clause (constant, simple or header), found {found}()"
  | unknownBindingMode name => s!"cannot find symbol: variable {name} in RestBindingMode"
  | unsupportedField => "cannot find symbol: unsupported field access"
  | contextUnavailable => "getContext() is not available outside of methods"
  | methodAsValue name => s!"cannot find symbol: method {name}() cannot be used as a value"
  | creationAsValue => "object creation is only supported in throw statements"
  | thisAsValue => "'this' cannot be used as a value"
  | badOperands left right => s!"bad operand types for binary operator '+': {left.name} and {right.name}"

/-- A value, unless it could not be found, and the faults met on the way in their order. -/
structure Lowered (α : Type) where
  value? : Option α
  faults : List (Finding SemanticFault)

namespace Lowered

variable {α β : Type}

/-- A value without faults. -/
def done (value : α) : Lowered α := ⟨some value, []⟩

/-- No value, because of a fault. -/
def fail (span : Span) (fault : SemanticFault) : Lowered α := ⟨none, [⟨span, fault⟩]⟩

/-- A fault that does not stand in the way of a value. -/
def report (span : Span) (fault : SemanticFault) : Lowered Unit := ⟨some (), [⟨span, fault⟩]⟩

/-- Continues with the value; without one, what follows is not looked at. -/
def andThen (first : Lowered α) (next : α → Lowered β) : Lowered β :=
  match first.value? with
  | none => ⟨none, first.faults⟩
  | some value => ⟨(next value).value?, first.faults ++ (next value).faults⟩

instance : Monad Lowered where
  pure := done
  bind := andThen

/-- Looks at both results; there is a value when both have one. -/
def both (first : Lowered α) (second : Lowered β) : Lowered (α × β) :=
  ⟨first.value?.bind fun a => second.value?.map fun b => (a, b), first.faults ++ second.faults⟩

/-- Looks at every result; there is a value when all have one. -/
def all : List (Lowered α) → Lowered (List α)
  | [] => done []
  | first :: later => (fun (value, values) => value :: values) <$> both first (all later)

/-- The value or its absence, with the faults. -/
def attempt (result : Lowered α) : Lowered (Option α) := ⟨some result.value?, result.faults⟩

end Lowered

end RouteDepot.RouteClass
