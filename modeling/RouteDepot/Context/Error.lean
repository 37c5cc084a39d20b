/-! # Faults of texts that a context resolves

What can be wrong with a property placeholder, with the value of an option, or with a REST configuration that is
added to others.
-/

namespace RouteDepot

/-- Why the value of an option is refused. -/
inductive OptionFault where
  | emptyNumber
  | invalidDigit
  | numberTooLarge
  | notBoolean
  | unknownScheme
  | unknownBindingMode
  deriving DecidableEq, Repr

/-- The wording of a refusal. -/
def OptionFault.message : OptionFault → String
  | .emptyNumber => "cannot parse integer from empty string"
  | .invalidDigit => "invalid digit found in string"
  | .numberTooLarge => "number too large to fit in target type"
  | .notBoolean => "provided string was not `true` or `false`"
  | .unknownScheme => "expected http or https"
  | .unknownBindingMode => "expected one of off, auto, json, xml, json_xml"

/-- What a context can find wrong. -/
inductive ContextError where
  | unresolvedPlaceholder (key : String)
  | malformedPlaceholder (text : String)
  | invalidOption (option value : String) (reason : OptionFault)
  | conflictingRestConfiguration (component : String)
  deriving DecidableEq, Repr

/-- The wording of what a context finds wrong. -/
def ContextError.message : ContextError → String
  | .unresolvedPlaceholder key =>
    "property placeholder '\x7b\x7b" ++ key ++ "\x7d\x7d' could not be resolved"
  | .malformedPlaceholder text => s!"malformed property placeholder in '{text}'"
  | .invalidOption option value reason =>
    s!"invalid value '{value}' for rest configuration option '{option}': {reason.message}"
  | .conflictingRestConfiguration component =>
    s!"conflicting rest configuration for component '{component}'"

end RouteDepot
