import RouteDepot.Text.Cut

/-! # Arguments of the command line

Every argument belongs to an option whose name begins with two dashes. The value of an option follows its name,
as the next argument or behind an equals sign; a next argument that begins with a dash is no value, unless it is
the dash alone.
-/

namespace RouteDepot.CommandLine

/-- What the arguments ask for. -/
structure Arguments where
  routes : List String := []
  classpath : List String := []
  properties : Option String := none
  profile : Option String := none
  json : Bool := false
  deriving DecidableEq, Repr

/-- The options that take a value. -/
inductive ValueOption where
  | route | classpath | properties | profile
  deriving DecidableEq, Repr

/-- Every option that takes a value. -/
def ValueOption.all : List ValueOption := [.route, .classpath, .properties, .profile]

/-- The name of an option behind its dashes. -/
def ValueOption.name : ValueOption → String
  | .route => "route"
  | .classpath => "classpath"
  | .properties => "properties"
  | .profile => "profile"

/-- The name of the flag behind its dashes. -/
def jsonFlag : String := "json"

/-- Why arguments do not lead to a run. -/
inductive ArgumentFault where
  /-- The arguments ask for help. -/
  | help
  | unexpected (argument : String)
  | missingValue (option : String)
  | unexpectedValue (option : String)
  | repeated (option : String)
  deriving DecidableEq, Repr

/-- The wording of a fault. -/
def ArgumentFault.message : ArgumentFault → String
  | .help => "usage: [--route URI]... [--classpath DIR]... [--properties FILE] [--profile PROFILE] [--json]"
  | .unexpected argument => s!"unexpected argument '{argument}' found"
  | .missingValue option => s!"a value is required for '--{option}' but none was supplied"
  | .unexpectedValue option => s!"unexpected value for '--{option}' found; no more were expected"
  | .repeated option => s!"the argument '--{option}' cannot be used multiple times"

namespace Arguments

/-- The value of an option that may be given once. -/
def once (option : ValueOption) (value : String) : Option String → Except ArgumentFault (Option String)
  | none => .ok (some value)
  | some _ => .error (.repeated option.name)

/-- The arguments with the value of an option added; a path is never empty. -/
def take (a : Arguments) (option : ValueOption) (value : String) : Except ArgumentFault Arguments := do
  match option with
  | .route => return { a with routes := a.routes ++ [value] }
  | .classpath =>
    if value.isEmpty then throw (.missingValue option.name)
    return { a with classpath := a.classpath ++ [value] }
  | .properties =>
    if value.isEmpty then throw (.missingValue option.name)
    return { a with properties := ← once option value a.properties }
  | .profile => return { a with profile := ← once option value a.profile }

/-- The arguments with the flag set. -/
def takeJson (a : Arguments) : Except ArgumentFault Arguments :=
  if a.json then .error (.repeated jsonFlag) else .ok { a with json := true }

/-- Whether an argument stands for itself where a value is expected. -/
def isValue (argument : String) : Bool := argument.toList.head? != some '-' || argument == "-"

/-- The name of an option in an argument, and the value behind the equals sign. -/
def optionParts? (argument : String) : Option (String × Option String) :=
  (Text.behind? ['-', '-'] argument.toList).map fun name =>
    match Text.cutList? '=' name with
    | some (name, value) => (String.ofList name, some (String.ofList value))
    | none => (String.ofList name, none)

/-- Reads arguments one after another, up to the first fault. -/
def readFrom (a : Arguments) : List String → Except ArgumentFault Arguments
  | [] => .ok a
  | argument :: later =>
    if argument = "--" then
      match later with
      | [] => .ok a
      | other :: _ => .error (.unexpected other)
    else if argument.toList.take 2 = ['-', 'h'] then .error .help
    else match optionParts? argument with
      | none => .error (.unexpected argument)
      | some (name, value) =>
        if name = "help" ∧ value = none then .error .help
        else if name = jsonFlag then
          match value with
          | none => do (← a.takeJson).readFrom later
          | some _ => .error (.unexpectedValue name)
        else match ValueOption.all.find? (·.name == name), value, later with
          | none, _, _ => .error (.unexpected argument)
          | some option, some value, later => do (← a.take option value).readFrom later
          | some option, none, value :: later =>
            if isValue value then do (← a.take option value).readFrom later
            else .error (.missingValue option.name)
          | some option, none, [] => .error (.missingValue option.name)

/-- What arguments ask for. -/
def read (arguments : List String) : Except ArgumentFault Arguments := readFrom {} arguments

end Arguments

end RouteDepot.CommandLine
