import RouteDepot.Context.Placeholder
import RouteDepot.RouteClass.Program

/-! # Evaluating operands

Operands are evaluated against the properties of the context that is bound at the time. Without a context every
operand still has a value, unless it asks for property placeholders to be resolved.
-/

namespace RouteDepot.RouteClass

/-- How route code can misuse the calls that it is written in. -/
inductive Misuse where
  | missingMethod (name className : String)
  | missingConfigure (className : String)
  | noContext
  | badAutoStartup (text : String)
  | targetWithoutVerb (uri : String)
  deriving DecidableEq, Repr

/-- The wording of a misuse. -/
def Misuse.message : Misuse → String
  | missingMethod name className => s!"no method {name}() in {className}"
  | missingConfigure className => s!"{className} does not declare configure()"
  | noContext => "getContext() is null: no execution context was bound before configure()"
  | badAutoStartup text => s!"autoStartup expects true or false, got '{text}'"
  | targetWithoutVerb uri => "to(\"" ++ uri ++ "\") must follow a REST verb such as get() or post()"

/-- Why a configuration failed. -/
inductive ConfigureError where
  | raised (exception message : String)
  | misused (misuse : Misuse)
  | alreadyConfigured
  deriving DecidableEq, Repr

/-- The wording of a failed configuration. -/
def ConfigureError.message : ConfigureError → String
  | raised exception message => s!"{exception}: {message}"
  | misused misuse => s!"invalid route DSL usage: {misuse.message}"
  | alreadyConfigured => "builder has already been configured"

/-- The exception that a placeholder raises when it does not resolve. -/
def placeholderException : String := "java.lang.IllegalArgumentException"

namespace Operand

/-- The properties that are in reach: those of the bound context, if there is one. -/
abbrev Reach := Option Properties

/-- The text with its placeholders resolved against the properties in reach. -/
def resolveText (reach : Reach) (text : String) : Except ConfigureError String :=
  match reach with
  | none => .error (.misused .noContext)
  | some properties =>
    match properties.resolve text with
    | .ok resolved => .ok resolved
    | .error fault => .error (.raised placeholderException fault.message)

mutual

/-- The value of an operand. -/
def eval (reach : Reach) : Operand → Except ConfigureError Value
  | const value => .ok value
  | placeholders text => do return .str (← resolveText reach (← text.eval reach).display)
  | concat parts => do return .str (String.join (← evalTexts reach parts))

/-- The texts of the values of operands, evaluated in order. -/
def evalTexts (reach : Reach) : List Operand → Except ConfigureError (List String)
  | [] => .ok []
  | part :: later => do
    let value ← part.eval reach
    return value.display :: (← evalTexts reach later)

end

/-- The text of the value of an operand. -/
def evalText (reach : Reach) (operand : Operand) : Except ConfigureError String :=
  Value.display <$> operand.eval reach

/-- The text of the value of an operand, if there is one. -/
def evalOptional (reach : Reach) : Option Operand → Except ConfigureError (Option String)
  | none => .ok none
  | some operand => some <$> operand.evalText reach

end Operand

/-- The clause with its text evaluated. -/
def ClauseOperand.eval (reach : Operand.Reach) (c : ClauseOperand) : Except ConfigureError Clause := do
  return ⟨c.language, ← c.text.evalText reach⟩

end RouteDepot.RouteClass
