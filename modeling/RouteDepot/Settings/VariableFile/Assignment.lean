import RouteDepot.Surroundings
import RouteDepot.Text.Alphabetic
import RouteDepot.Text.Blank
import RouteDepot.Text.Numeric

/-! # Assignments in a variable file

A line gives a value to a name: `name=value`, perhaps behind the word `export`. A value may be quoted, and
outside of single quotes it may mention other variables as `$name` or between braces.
-/

namespace RouteDepot.VariableFile

/-- What a line says. -/
inductive Entry where
  | nothing
  | assign (name value : String)
  deriving DecidableEq, Repr

/-! ### Values -/

/-- What stands in front of a character of a value. -/
inductive ValueState where
  | plain
  | escape
  /-- A quotation between single quotes. -/
  | strong
  /-- The name of a variable behind a dollar sign, as far as it is read. -/
  | name (read : List Char)
  /-- The name of a variable between braces, as far as it is read. -/
  | braced (read : List Char)
  /-- The end of the value, behind a blank. -/
  | tail
  deriving DecidableEq, Repr

/-- The characters of names behind a dollar sign. -/
def isNamePart (c : Char) : Bool := Text.isAlphabetic c || Text.isNumeric c

/-- The character that an escape stands for. -/
def escaped? (c : Char) : Option Char :=
  match c with
  | '\\' | '\'' | '"' | '$' | ' ' => some c
  | 'n' => some '\n'
  | _ => none

/-- The value of a variable that is mentioned; there is nothing in the place of an unknown one. -/
def mention (environment : Environment) (name : List Char) : List Char :=
  ((environment.value? (String.ofList name)).getD "").toList

/-- What the rest of a value means; `quoted` tells whether it stands between double quotes. -/
def valueRest (environment : Environment) : (quoted : Bool) → ValueState → List Char → Option (List Char)
  | quoted, state, [] =>
    match state with
    | .braced _ | .strong => none
    | .name read => if quoted then none else some (mention environment read)
    | .plain | .escape | .tail => if quoted then none else some []
  | quoted, .tail, c :: cs =>
    if c = ' ' ∨ c = '\t' then valueRest environment quoted .tail cs
    else if c = '#' then some []
    else none
  | quoted, .escape, c :: cs =>
    match escaped? c with
    | some meant => (valueRest environment quoted .plain cs).map (meant :: ·)
    | none => none
  | quoted, .strong, c :: cs =>
    if c = '\'' then valueRest environment quoted .plain cs
    else (valueRest environment quoted .strong cs).map (c :: ·)
  | quoted, .name read, c :: cs =>
    if isNamePart c then valueRest environment quoted (.name (read ++ [c])) cs
    else if c = '{' ∧ read.isEmpty then valueRest environment quoted (.braced []) cs
    else if c = '$' then (valueRest environment quoted (.name []) cs).map (mention environment read ++ ·)
    else (valueRest environment quoted .plain cs).map (mention environment read ++ c :: ·)
  | quoted, .braced read, c :: cs =>
    if c = '}' then (valueRest environment quoted .plain cs).map (mention environment read ++ ·)
    else valueRest environment quoted (.braced (read ++ [c])) cs
  | quoted, .plain, c :: cs =>
    if c = '$' then valueRest environment quoted (.name []) cs
    else if c = '\\' then valueRest environment quoted .escape cs
    else if c = '"' then valueRest environment (!quoted) .plain cs
    else if quoted then (valueRest environment quoted .plain cs).map (c :: ·)
    else if c = '\'' then valueRest environment quoted .strong cs
    else if c = ' ' ∨ c = '\t' then valueRest environment quoted .tail cs
    else (valueRest environment quoted .plain cs).map (c :: ·)

/-! ### Lines -/

/-- A name at the front of a text, and what stands behind it. -/
def name? : List Char → Option (List Char × List Char)
  | [] => none
  | c :: cs =>
    let isPart (c : Char) : Bool := c.isAlphanum || c == '_' || c == '.'
    if c.isAlpha || c == '_' then some (c :: cs.takeWhile isPart, cs.dropWhile isPart) else none

/-- What stands behind the equals sign at the front of a text, blanks around the sign aside. -/
def behindEqual? (cs : List Char) : Option (List Char) :=
  match cs.dropWhile Text.isBlank with
  | '=' :: value => some (value.dropWhile Text.isBlank)
  | _ => none

/-- A name and the text of its value. A first name `export` without an equals sign is only a word in front of the
name. -/
def nameAndValue? (cs : List Char) : Option (List Char × List Char) := do
  let (first, behind) ← name? cs
  match behindEqual? behind with
  | some value => return (first, value)
  | none =>
    if String.ofList first = "export" then
      let (second, behind) ← name? (behind.dropWhile Text.isBlank)
      return (second, ← behindEqual? behind)
    else none

/-- What a line says; absent when it says nothing that can be understood. -/
def entry? (environment : Environment) (line : List Char) : Option Entry :=
  let line := Text.trimList line
  if line.isEmpty || line.head? = some '#' then some .nothing
  else do
    let (name, value) ← nameAndValue? line
    let meaning ← if value.head? = some '#' then some [] else valueRest environment false .plain value
    return .assign (String.ofList name) (String.ofList meaning)

end RouteDepot.VariableFile
