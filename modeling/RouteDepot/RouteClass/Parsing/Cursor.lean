import RouteDepot.RouteClass.Syntax
import RouteDepot.RouteClass.Token

/-! # The state of a parse

A parser walks over the tokens of a source. Its state keeps the tokens ahead, the bytes of the token read last, the
number of links in the current statement, and the faults recorded so far; a fault that is thrown leaves the state
where it was met. Loops go on only while they shorten the tokens ahead.
-/

namespace RouteDepot.RouteClass

/-- What can be wrong with the order of the tokens. -/
inductive SyntaxFault where
  | expected (what : String) (found : Option TokenKind)
  | nestedTooDeeply (what : String)
  | expressionTooLong
  | unsupportedDeclaration (found : TokenKind)
  | nestedDeclaration
  | genericType
  | voidVariable
  | returnValue
  deriving DecidableEq, Repr

/-- The wording of a syntax fault. -/
def SyntaxFault.message : SyntaxFault → String
  | .expected what found => s!"expected {what}, found {TokenKind.describeNext found}"
  | .nestedTooDeeply what => s!"{what} nested too deeply"
  | .expressionTooLong => "expression too long"
  | .unsupportedDeclaration found => s!"{found.describe} declarations are not supported"
  | .nestedDeclaration => "nested type declarations are not supported"
  | .genericType => "generic types are not supported"
  | .voidVariable => "'void' type not allowed here"
  | .returnValue => "incompatible types: unexpected return value"

/-- The state of a parse. -/
structure Cursor where
  /-- The tokens ahead. -/
  ahead : List Token
  /-- Where the end of the input is reported. -/
  stop : Span
  /-- The bytes of the token read last. -/
  last : Span := ⟨0, 0⟩
  /-- The links of the current statement so far. -/
  links : Nat := 0
  /-- The faults recorded so far, in order. -/
  faults : List (Finding SyntaxFault) := []

/-- A step of a parse: it yields a value or throws a fault, and moves the cursor in both cases. -/
abbrev Parser (α : Type) := ExceptT (Finding SyntaxFault) (StateM Cursor) α

namespace Cursor

/-- The next token, if any. -/
def next? (c : Cursor) : Option TokenKind := c.ahead.head?.map (·.kind)

/-- The bytes that a fault at the cursor is reported at. -/
def here (c : Cursor) : Span := (c.ahead.head?.map (·.span)).getD c.stop

/-- The cursor behind the next token. -/
def advance (c : Cursor) : Cursor :=
  match c.ahead with
  | [] => c
  | token :: later => { c with ahead := later, last := token.span }

end Cursor

namespace Parser

/-! ### Steps on single tokens -/

/-- Stops with a fault at given bytes. -/
def failAt {α : Type} (span : Span) (fault : SyntaxFault) : Parser α := throw ⟨span, fault⟩

/-- Stops with a fault at the cursor. -/
def fail {α : Type} (fault : SyntaxFault) : Parser α := do failAt (← get).here fault

/-- Stops because something else was expected at the cursor. -/
def failExpected {α : Type} (what : String) : Parser α := do fail (.expected what (← get).next?)

/-- Moves past the next token. -/
def skip : Parser Unit := modify Cursor.advance

/-- Whether the next token is the given one. -/
def sees (kind : TokenKind) : Parser Bool := return (← get).next? == some kind

/-- Moves past the next token if it is the given one, and says whether it was. -/
def accept (kind : TokenKind) : Parser Bool := do
  if ← sees kind then
    skip
    return true
  else return false

/-- Moves past the given token, and yields its bytes. -/
def expect (kind : TokenKind) (what : String) : Parser Span := do
  if ← accept kind then return (← get).last else failExpected what

/-- Moves past an identifier. -/
def ident : Parser Ident := do
  match (← get).next? with
  | some (.ident name) =>
    skip
    return ⟨name, (← get).last⟩
  | _ => failExpected "<identifier>"

/-- The most links that the expressions of one statement may have together. -/
def linkLimit : Nat := 512

/-- Counts a link of the current statement. -/
def link : Parser Unit := do
  modify fun c => { c with links := c.links + 1 }
  if (← get).links > linkLimit then fail .expressionTooLong

/-- Begins to count the links of a statement. -/
def resetLinks : Parser Unit := modify fun c => { c with links := 0 }

/-! ### Loops and recovery -/

/-- Repeats a step from a state of the cursor, as long as it yields a value and shortens the tokens ahead. -/
def iterateFrom {α : Type} (step : α → Parser (Option α)) (value : α) (c : Cursor) :
    Except (Finding SyntaxFault) α × Cursor :=
  match (step value).run.run c with
  | (.error fault, after) => (.error fault, after)
  | (.ok none, after) => (.ok value, after)
  | (.ok (some more), after) =>
    if after.ahead.length < c.ahead.length then iterateFrom step more after else (.ok more, after)
termination_by c.ahead.length

/-- Repeats a step on a value until it yields none. -/
def iterate {α : Type} (step : α → Parser (Option α)) (value : α) : Parser α :=
  ExceptT.mk fun c => iterateFrom step value c

/-- One or more values with commas between them. -/
def commaSeparated {α : Type} (item : Parser α) : Parser (List α) := do
  let first ← item
  iterate (fun done => do
    if ← accept (.mark .comma) then return some (done ++ [← item]) else return none) [first]

/-- Records the fault that a step throws, and moves the cursor on from there; the step then yields no value. -/
def recover {α : Type} (step : Parser α) (moveOn : Cursor → Cursor) : Parser (Option α) := do
  try
    return some (← step)
  catch fault =>
    modify fun c => { c with faults := c.faults ++ [fault] }
    modify moveOn
    return none

end Parser

/-! ### Moving on after a fault -/

/-- Skips to the end of a member or statement: past the next semicolon outside braces, past the brace that closes
the first one opened on the way, or up to a closing brace that was opened before. Yields the tokens ahead then, and
the bytes of the token skipped last. -/
def skipMember (depth : Nat) : List Token → Span → List Token × Span
  | [], last => ([], last)
  | token :: later, last =>
    match token.kind with
    | .mark .semicolon =>
      if depth = 0 then (later, token.span) else skipMember depth later token.span
    | .mark .braceOpen => skipMember (depth + 1) later token.span
    | .mark .braceClose =>
      match depth with
      | 0 => (token :: later, last)
      | 1 => (later, token.span)
      | depth + 2 => skipMember (depth + 1) later token.span
    | _ => skipMember depth later token.span

/-- Skips to the end of a declaration outside classes: past the next semicolon outside braces, or past the brace
that closes the first one opened on the way; a closing brace that was never opened is skipped as well. -/
def skipDeclaration (depth : Nat) : List Token → Span → List Token × Span
  | [], last => ([], last)
  | token :: later, _ =>
    match token.kind with
    | .mark .semicolon =>
      if depth = 0 then (later, token.span) else skipDeclaration depth later token.span
    | .mark .braceOpen => skipDeclaration (depth + 1) later token.span
    | .mark .braceClose =>
      match depth with
      | 0 | 1 => (later, token.span)
      | depth + 2 => skipDeclaration (depth + 1) later token.span
    | _ => skipDeclaration depth later token.span

/-- Skips up to the parenthesis that closes `depth` open ones; nothing when it is missing. -/
def skipParens? (depth : Nat) : List Token → Option (List Token × Span)
  | [] => none
  | token :: later =>
    match token.kind with
    | .mark .parenOpen => skipParens? (depth + 1) later
    | .mark .parenClose => if depth ≤ 1 then some (later, token.span) else skipParens? (depth - 1) later
    | _ => skipParens? depth later

namespace Cursor

/-- The cursor behind the current member or statement. -/
def afterMember (c : Cursor) : Cursor :=
  let (ahead, last) := skipMember 0 c.ahead c.last
  { c with ahead, last }

/-- The cursor behind the current declaration. -/
def afterDeclaration (c : Cursor) : Cursor :=
  let (ahead, last) := skipDeclaration 0 c.ahead c.last
  { c with ahead, last }

end Cursor

end RouteDepot.RouteClass
