import RouteDepot.RouteClass.Parsing.Cursor

/-! # Parsing expressions

An expression is a sum of chains, and a chain is a primary expression followed by field names and calls. The parsers
here take the parser of nested expressions as an argument, and `expression` ties the knot: its argument is the
number of levels that may still be opened, so nesting ends where that number does.
-/

namespace RouteDepot.RouteClass.Parser

/-- A dotted name; a dot counts only when an identifier follows it. -/
def dottedName : Parser DottedName := do
  let first ← ident
  let parts ← iterate (fun parts => do
    match (← get).ahead with
    | ⟨.mark .dot, _⟩ :: ⟨.ident _, _⟩ :: _ =>
      skip
      return some (parts ++ [(← ident).name])
    | _ => return none) [first.name]
  return ⟨parts, ⟨first.span.start, (← get).last.stop⟩⟩

/-- Arguments between parentheses. -/
def arguments (nested : Parser Expression) : Parser (List Expression) := do
  let _ ← expect (.mark .parenOpen) "'('"
  let args ← if ← sees (.mark .parenClose) then pure [] else commaSeparated nested
  let _ ← expect (.mark .parenClose) "')'"
  return args

/-- The value of a token that is a literal. -/
def literal? : TokenKind → Option Literal
  | .str value => some (.str value)
  | .char value => some (.char value)
  | .int value => some (.int value)
  | .keyword .trueKw => some (.bool true)
  | .keyword .falseKw => some (.bool false)
  | .keyword .nullKw => some .null
  | _ => none

/-- A literal, a name, a call, an object creation, `this`, or an expression in parentheses. -/
def primary (nested : Parser Expression) : Parser Expression := do
  let here := (← get).here
  match (← get).next? with
  | some (.ident _) =>
    let name ← ident
    if ← sees (.mark .parenOpen) then
      let args ← arguments nested
      return .call name args ⟨name.span.start, (← get).last.stop⟩
    else return .name name
  | some (.keyword .thisKw) =>
    skip
    return .this here
  | some (.keyword .newKw) =>
    skip
    let type ← dottedName
    let args ← arguments nested
    return .new type args ⟨here.start, (← get).last.stop⟩
  | some (.mark .parenOpen) =>
    skip
    let inner ← nested
    let _ ← expect (.mark .parenClose) "')'"
    return inner
  | some kind =>
    match literal? kind with
    | some value =>
      skip
      return .literal value here
    | none => failExpected "expression"
  | none => failExpected "expression"

/-- One more link of a chain, if a dot follows. -/
def chainLink (nested : Parser Expression) (target : Expression) : Parser (Option Expression) := do
  if ← accept (.mark .dot) then
    link
    let name ← ident
    if ← sees (.mark .parenOpen) then
      let args ← arguments nested
      return some (.callOn target name args ⟨target.start, (← get).last.stop⟩)
    else return some (.field target name)
  else return none

/-- A primary expression followed by field names and calls. -/
def chain (nested : Parser Expression) : Parser Expression := do
  iterate (chainLink nested) (← primary nested)

/-- One more term of a sum, if a plus follows. -/
def sumTerm (nested : Parser Expression) (left : Expression) : Parser (Option Expression) := do
  if ← accept (.mark .plus) then
    link
    return some (.concat left (← chain nested))
  else return none

/-- Chains joined by pluses, from the left. -/
def sum (nested : Parser Expression) : Parser Expression := do
  iterate (sumTerm nested) (← chain nested)

/-- An expression that may open the given number of levels, itself included. -/
def expression : Nat → Parser Expression
  | 0 => fail (.nestedTooDeeply "expression")
  | room + 1 => sum (expression room)

end RouteDepot.RouteClass.Parser
