import RouteDepot.RouteClass.Parsing.Expression

/-! # Parsing statements

A faulty statement is recorded, and parsing goes on behind its semicolon or its braces, so that every statement of a
block is looked at. Blocks and expressions share one limit on nesting.
-/

namespace RouteDepot.RouteClass.Parser

/-- A type name; type arguments are a fault. -/
def typeName : Parser TypeName := do
  let name ← dottedName
  if ← sees (.mark .less) then fail .genericType
  if ← accept (.mark .bracketOpen) then
    let _ ← expect (.mark .bracketClose) "']'"
    return ⟨name, true⟩
  else return ⟨name, false⟩

/-- Whether tokens begin with a type and a name, or with an array type. -/
def startsWithType : List Token → Bool
  | ⟨.ident _, _⟩ :: ⟨.mark .dot, _⟩ :: later => startsWithType later
  | ⟨.ident _, _⟩ :: ⟨.ident _, _⟩ :: _ => true
  | ⟨.ident _, _⟩ :: ⟨.mark .bracketOpen, _⟩ :: ⟨.mark .bracketClose, _⟩ :: _ => true
  | _ => false

/-- Whether tokens begin with the declaration of a local variable. -/
def startsDeclaration : List Token → Bool
  | ⟨.keyword .finalKw, _⟩ :: _ => true
  | ahead => startsWithType ahead

/-- An initial value, if an equals sign follows. -/
def initialValue (nested : Parser Expression) : Parser (Option Expression) := do
  if ← accept (.mark .equal) then return some (← nested) else return none

/-- The declaration of a local variable. -/
def localDeclaration (nested : Parser Expression) : Parser Statement := do
  let _ ← accept (.keyword .finalKw)
  let type ← typeName
  let name ← ident
  let value ← initialValue nested
  let _ ← expect (.mark .semicolon) "';'"
  return .declare type name value

/-- A statement, given the parsers of nested expressions and blocks. -/
def statement (nested : Parser Expression) (nestedBlock : Parser Block) : Parser Statement := do
  resetLinks
  match (← get).next? with
  | some (.mark .semicolon) =>
    skip
    return .empty
  | some (.mark .braceOpen) =>
    let inner ← nestedBlock
    return .block inner.body inner.span
  | some (.keyword .returnKw) =>
    let span := (← get).here
    skip
    if ← accept (.mark .semicolon) then return .return span else fail .returnValue
  | some (.keyword .throwKw) =>
    let start := (← get).here.start
    skip
    let value ← nested
    let semicolon ← expect (.mark .semicolon) "';'"
    return .throw value ⟨start, semicolon.stop⟩
  | _ =>
    if startsDeclaration (← get).ahead then localDeclaration nested
    else
      let value ← nested
      let _ ← expect (.mark .semicolon) "';'"
      return .expression value

/-- Whether a closing brace or the end of the input follows. -/
def bodyEnds : Parser Bool := do
  match (← get).next? with
  | none | some (.mark .braceClose) => return true
  | _ => return false

/-- One more statement of a body, unless the body ends here. -/
def bodyStatement (nested : Parser Expression) (nestedBlock : Parser Block) (done : List Statement) :
    Parser (Option (List Statement)) := do
  if ← bodyEnds then return none
  return some (done ++ (← recover (statement nested nestedBlock) Cursor.afterMember).toList)

/-- Statements between braces. -/
def braced (nested : Parser Expression) (nestedBlock : Parser Block) : Parser Block := do
  let opening ← expect (.mark .braceOpen) "'\x7b'"
  let body ← iterate (bodyStatement nested nestedBlock) []
  let closing ← expect (.mark .braceClose) "'\x7d'"
  return ⟨body, ⟨opening.start, closing.stop⟩⟩

/-- A block that may open the given number of levels, itself included. -/
def block : Nat → Parser Block
  | 0 => fail (.nestedTooDeeply "block")
  | room + 1 => braced (expression room) (block room)

end RouteDepot.RouteClass.Parser
