import RouteDepot.Toml.Scalar
import RouteDepot.Toml.Table

/-! # Configuration texts

A text is a list of lines: assignments, headings, and lines without either. Arrays and tables that stand as
values may hold others, up to a depth.
-/

namespace RouteDepot.Toml

open Text Text.Reader Spacing

/-! ### Keys -/

/-- Takes one key, with or without quotes. -/
def simpleKey : Reader String := do
  match ← get with
  | '"' :: cs => set cs; return String.ofList (← Scalar.basicInside)
  | '\'' :: cs => set cs; return String.ofList (← Scalar.rawInside)
  | _ =>
    let bare ← takeWhile Quoted.isBare
    if bare.isEmpty then failure
    return String.ofList bare

/-- A key of a dotted one, and whether there is another behind it. -/
def dottedPart : Reader (List String × Bool) := do
  spaces
  let key ← simpleKey
  spaces
  return ([key], ← accept '.')

/-- The most containers that may stand inside each other, and the most parts of a dotted key. -/
def nestingLimit : Nat := 79

/-- Takes a dotted key. -/
def place : Reader Place := do
  let parts ← many dottedPart
  if nestingLimit < parts.length then failure
  match parts.getLast? with
  | some key => return ⟨parts.dropLast, key⟩
  | none => failure

/-! ### Values -/

/-- Takes an assignment of a value that some reader takes. -/
def assignment (value : Reader Item) : Reader Assignment := do
  let place ← place
  expect '='
  spaces
  return ⟨place, ← value⟩

/-- An item of an array, and whether there can be another behind it. -/
def arrayPart (value : Reader Item) : Reader (List Item × Bool) := do
  layout
  if ← accept ']' then return ([], false)
  let item ← value
  layout
  if ← accept ',' then return ([item], true)
  expect ']'
  return ([item], false)

/-- An assignment inside a table that stands as a value, and whether there is another behind it. -/
def fieldPart (value : Reader Item) : Reader (List Assignment × Bool) := do
  let a ← assignment value
  spaces
  if ← accept ',' then return ([a], true)
  expect '}'
  return ([a], false)

/-- Takes a table that stands as a value, behind its brace. -/
def tableInside (value : Reader Item) : Reader Item := do
  spaces
  let assignments ← if ← accept '}' then pure [] else many (fieldPart value)
  StateT.lift (do return .table .inline (← Fields.assignAll [] assignments))

/-- Takes a value with room for so many containers inside each other. -/
def readValue : Nat → Reader Item
  | 0 => .value <$> Scalar.read
  | room + 1 => do
    match ← get with
    | '[' :: cs => set cs; return .arr (← many (arrayPart (readValue room)))
    | '{' :: cs => set cs; tableInside (readValue room)
    | _ => .value <$> Scalar.read

/-! ### Lines -/

/-- A line that says something. -/
inductive Statement where
  | heading (heading : Heading)
  | assignment (assignment : Assignment)

/-- Takes a heading behind its bracket. -/
def headingInside : Reader Heading := do
  if ← accept '[' then
    let place ← place
    expectAll "]]"
    return .another place
  else
    let place ← place
    expect ']'
    return .table place

/-- A line, and whether there is another behind it. -/
def line : Reader (List Statement × Bool) := do
  spaces
  match ← get with
  | [] => return ([], false)
  | '[' :: cs =>
    set cs
    let heading ← headingInside
    restOfLine
    return ([.heading heading], true)
  | cs =>
    if cs.head? == some '#' || (behindLineEnd? cs).isSome then
      restOfLine
      return ([], true)
    else
      let a ← assignment (readValue nestingLimit)
      restOfLine
      return ([.assignment a], true)

/-! ### Documents -/

/-- The assignments up to the first heading, and each heading with the assignments below it. -/
def sections : List Statement → List Assignment × List (Heading × List Assignment)
  | [] => ([], [])
  | .assignment a :: later =>
    let (front, rest) := sections later
    (a :: front, rest)
  | .heading heading :: later =>
    let (front, rest) := sections later
    ([], (heading, front) :: rest)

/-- The fields of the table that statements build. -/
def Fields.ofStatements? (statements : List Statement) : Option Fields := do
  let (front, rest) := sections statements
  rest.foldlM (fun fields (heading, assignments) => fields.addSection heading assignments)
    (← Fields.assignAll [] front)

/-- A text without the mark of its byte order. -/
def withoutByteOrderMark : List Char → List Char
  | '\uFEFF' :: cs => cs
  | cs => cs

/-- The fields of the table that a whole text describes, in ascending order of their keys. -/
def fieldsOf? (text : String) : Option (List (String × Value)) := do
  let (statements, _) ← many line (withoutByteOrderMark text.toList)
  let fields ← completeFields? (← Fields.ofStatements? statements)
  return (Dictionary.ofList fields).entries

end RouteDepot.Toml
