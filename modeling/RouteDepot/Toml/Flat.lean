import RouteDepot.Context.Placeholder
import RouteDepot.Toml.Document

/-! # Flat properties

The properties that a configuration text defines: each scalar and each array under the keys that lead to it,
with points between them. Where two of them have the same name, the later one counts.
-/

namespace RouteDepot.Toml

/-- The name of a field inside a table with a name of its own. -/
def qualify (name key : String) : String := if name.isEmpty then key else s!"{name}.{key}"

mutual

/-- The names and texts that a value under a name defines, in order. -/
def leaves (name : String) : Value → List (String × String)
  | .table fields => fieldLeaves name fields
  | .arr items => [(name, ",".intercalate (items.map Value.plainText))]
  | .str value => [(name, value)]
  | .int value => [(name, (Value.int value).plainText)]
  | .real value => [(name, (Value.real value).plainText)]
  | .bool value => [(name, (Value.bool value).plainText)]
  | .moment value => [(name, (Value.moment value).plainText)]

/-- The names and texts that the fields of a table under a name define, in order. -/
def fieldLeaves (name : String) : List (String × Value) → List (String × String)
  | [] => []
  | (key, value) :: fields => leaves (qualify name key) value ++ fieldLeaves name fields

end

/-- The properties that the fields of a table define. -/
def flatten (fields : List (String × Value)) : Properties := .ofList (fieldLeaves "" fields)

/-- The properties that a configuration text defines. -/
def properties? (text : String) : Option Properties := flatten <$> fieldsOf? text

end RouteDepot.Toml
