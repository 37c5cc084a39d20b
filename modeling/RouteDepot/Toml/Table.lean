import RouteDepot.Dictionary
import RouteDepot.Toml.Value

/-! # Building tables

Headings and dotted keys build tables piece by piece. Nothing is added to a table that stands as a value; to one
that a heading names only tables inside it are; one that only dotted keys or headings of tables inside it have
named so far may still be added to.
-/

namespace RouteDepot.Toml

/-- How a table under construction came about. -/
inductive Origin where
  /-- It stands as a value. -/
  | inline
  /-- A heading names it. -/
  | heading
  /-- The heading of a table inside it mentions it. -/
  | mentioned
  /-- A dotted key mentions it. -/
  | dotted
  deriving DecidableEq, Repr

/-- A part of a table under construction. -/
inductive Item where
  /-- A scalar. -/
  | value (value : Value)
  | arr (items : List Item)
  | table (origin : Origin) (fields : List (String × Item))
  /-- Tables that headings name one after another; headings refer to the last one. -/
  | tables (earlier : List (List (String × Item))) (last : List (String × Item))
  deriving Inhabited

/-- The fields of a table under construction, in order. -/
abbrev Fields := List (String × Item)

namespace Fields

/-- Puts an item under a key, in place of the one that stood there. -/
def replace (key : String) (item : Item) (fields : Fields) : Fields :=
  fields.map fun (k, old) => if k = key then (k, item) else (k, old)

/-- Changes the table at a path, which is created where it does not exist. -/
def alter (isDotted : Bool) (change : Origin → Fields → Option Fields) :
    List String → Origin → Fields → Option Fields
  | [], origin, fields => change origin fields
  | key :: path, _, fields =>
    match fields.lookup key with
    | none => do
      let origin := if isDotted then .dotted else .mentioned
      return fields ++ [(key, .table origin (← alter isDotted change path origin []))]
    | some (.value _) | some (.arr _) => none
    | some (.table origin inner) => do
      if origin = .inline ∨ (isDotted ∧ origin = .heading) then none
      else return fields.replace key (.table origin (← alter isDotted change path origin inner))
    | some (.tables earlier last) => do
      return fields.replace key (.tables earlier (← alter isDotted change path .heading last))

/-- Takes the item under a key away. -/
def remove (key : String) (fields : Fields) : Fields := fields.filter (·.1 != key)

/-- Adds an item under a new key. -/
def add (key : String) (item : Item) (fields : Fields) : Option Fields :=
  if (fields.lookup key).isSome then none else some (fields ++ [(key, item)])

/-- Sets an item under a key behind a path of tables, which only dotted keys may have named so far. -/
def assign (path : List String) (key : String) (item : Item) (fields : Fields) : Option Fields :=
  if path.isEmpty then fields.add key item
  else fields.alter true (fun origin inner => if origin = .dotted then inner.add key item else none) path .heading

end Fields

/-- A key behind a path of tables. -/
structure Place where
  path : List String
  key : String
  deriving Repr

/-- A value for a place. -/
structure Assignment where
  place : Place
  value : Item

/-- Makes assignments one after another. -/
def Fields.assignAll (fields : Fields) (assignments : List Assignment) : Option Fields :=
  assignments.foldlM (fun fields a => fields.assign a.place.path a.place.key a.value) fields

/-- A heading. -/
inductive Heading where
  /-- Begins a table. -/
  | table (place : Place)
  /-- Begins one more of the tables at a place. -/
  | another (place : Place)

/-- Adds the table below a heading. It comes behind all that its parent holds so far, also when the heading of a
table inside it has mentioned it before. -/
def Fields.addSection (fields : Fields) (heading : Heading) (assignments : List Assignment) : Option Fields :=
  match heading with
  | .table place =>
    fields.alter false (fun _ parent =>
      match parent.lookup place.key with
      | none => do parent.add place.key (.table .heading (← Fields.assignAll [] assignments))
      | some (.table .mentioned inner) => do
        (parent.remove place.key).add place.key (.table .heading (← Fields.assignAll inner assignments))
      | some _ => none) place.path .heading
  | .another place =>
    fields.alter false (fun _ parent =>
      match parent.lookup place.key with
      | none => do parent.add place.key (.tables [] (← Fields.assignAll [] assignments))
      | some (.tables earlier last) => do
        return parent.replace place.key (.tables (earlier ++ [last]) (← Fields.assignAll [] assignments))
      | some _ => none) place.path .heading

/-! ### Complete tables -/

/-- The moment that the text under the key of moments spells. -/
def Item.moment? : Item → Option Value
  | .value (.str text) => Value.moment <$> Moment.ofText? text
  | _ => none

mutual

/-- The value that an item comes to. -/
def Item.complete? : Item → Option Value
  | .value value => some value
  | .arr items => do return .arr (← completeItems? items)
  | .table _ fields => completeTable? fields
  | .tables earlier last => do return .arr ((← completeTables? earlier) ++ [← completeTable? last])

/-- The value that the fields of a table come to: the table, with its keys in ascending order. A table that begins
with the key of moments is a moment, whatever else it holds. -/
def completeTable? : Fields → Option Value
  | [] => some (.table [])
  | (key, item) :: fields =>
    if key = Value.momentKey then item.moment?
    else do
      let value ← item.complete?
      return .table (Dictionary.ofList ((key, value) :: (← completeFields? fields))).entries

/-- The fields of a table with the values that they come to. -/
def completeFields? : Fields → Option (List (String × Value))
  | [] => some []
  | (key, item) :: fields => do return (key, ← item.complete?) :: (← completeFields? fields)

/-- The values that items come to. -/
def completeItems? : List Item → Option (List Value)
  | [] => some []
  | item :: items => do return (← item.complete?) :: (← completeItems? items)

/-- The values that tables come to. -/
def completeTables? : List Fields → Option (List Value)
  | [] => some []
  | fields :: tables => do return (← completeTable? fields) :: (← completeTables? tables)

end

end RouteDepot.Toml
