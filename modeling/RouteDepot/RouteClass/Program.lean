import RouteDepot.Dictionary
import RouteDepot.Rest
import RouteDepot.Route

/-! # Programs

The checked form of a route class: for its constructor and for each of its methods without parameters, a list of
instructions whose operands are evaluated when the instructions run.
-/

namespace RouteDepot.RouteClass

/-- A value of the language; integers have 64 bits. -/
inductive Value where
  | str (value : String)
  | int (value : Int64)
  | bool (value : Bool)
  | null
  deriving DecidableEq, Repr

/-- The type of a value. -/
inductive ValueType where
  | str | int | bool | null
  deriving DecidableEq, Repr

/-- The name of a type. -/
def ValueType.name : ValueType → String
  | .str => "String"
  | .int => "int"
  | .bool => "boolean"
  | .null => "<null>"

namespace Value

/-- The type of a value. -/
def type : Value → ValueType
  | str _ => .str
  | int _ => .int
  | bool _ => .bool
  | null => .null

/-- The text of a value. -/
def display : Value → String
  | str value => value
  | int value => toString value.toInt
  | bool value => if value then "true" else "false"
  | null => "null"

end Value

/-- An argument that is evaluated when it is needed. -/
inductive Operand where
  | const (value : Value)
  /-- The text with its property placeholders resolved. -/
  | placeholders (text : Operand)
  /-- The texts of the parts one after another. -/
  | concat (parts : List Operand)
  deriving Repr

instance : Inhabited Operand := ⟨.const .null⟩

/-- The type that the value of an operand has. -/
def Operand.type : Operand → ValueType
  | const value => value.type
  | placeholders _ | concat _ => .str

/-- A clause whose text is yet to be evaluated. -/
structure ClauseOperand where
  language : ClauseLanguage
  text : Operand
  deriving Repr

/-- One call in the chain that describes a route. -/
inductive RouteCall where
  | routeId (id : Operand)
  | description (text : Operand)
  | autoStartup (flag : Operand)
  | send (uris : List Operand)
  | sendDynamic (uri : Operand)
  | log (message : Operand)
  | setBody (value : ClauseOperand)
  | setHeader (name : Operand) (value : ClauseOperand)
  | removeHeader (name : Operand)
  | transform (value : ClauseOperand)
  | filter (condition : ClauseOperand)
  deriving Repr

/-- One call in the chain that describes a REST service. -/
inductive RestCall where
  | description (text : Operand)
  | consumes (type : Operand)
  | produces (type : Operand)
  | verb (method : HttpMethod) (uri : Option Operand)
  | send (uri : Operand)
  deriving Repr

/-- The single options of a REST configuration. -/
inductive RestOption where
  | component | host | port | scheme | contextPath | apiContextPath | bindingMode | enableCors
  deriving DecidableEq, Repr

/-- The groups of free properties of a REST configuration. -/
inductive RestPropertyGroup where
  | component | endpoint | consumer | dataFormat
  deriving DecidableEq, Repr

/-- One call in the chain that describes a REST configuration. -/
inductive ConfigurationCall where
  | set (option : RestOption) (value : Operand)
  | property (group : RestPropertyGroup) (key value : Operand)
  deriving Repr

/-- One statement of a method. -/
inductive Instruction where
  | route (origin : Operand) (calls : List RouteCall)
  | rest (path : Option Operand) (calls : List RestCall)
  | restConfiguration (component : Option Operand) (calls : List ConfigurationCall)
  /-- Runs a method without parameters of the same class. -/
  | invoke (method : String)
  | throw (exception : String) (message : Option Operand)
  | return
  deriving Repr

/-- A checked class. -/
structure Program where
  name : String
  qualifiedName : String
  isAbstract : Bool
  isRouteBuilder : Bool
  /-- The constructor without parameters; absent when all constructors have some. -/
  constructor : Option (List Instruction)
  /-- The methods without parameters. -/
  methods : Dictionary (List Instruction)

end RouteDepot.RouteClass
