import RouteDepot.RouteClass.Lowering.Body
import RouteDepot.Text.Cut

/-! # Classes and units

Lowering a class looks at its parent and interfaces, then at its fields in order, at its constructors and at its
methods. A field may use the fields before it; methods and constructors may use all fields and methods of the
class. Lowering a unit looks at every class and yields the program of the one that the unit is named after.
-/

namespace RouteDepot.RouteClass

/-- The classes that make a route builder of a class that extends them. -/
def routeBuilderTypes : List String :=
  ["org.apache.camel.builder.RouteBuilder", "org.apache.camel.builder.endpoint.EndpointRouteBuilder"]

/-- The class that every class extends. -/
def objectType : String := "java.lang.Object"

/-- The interfaces that a class may implement. -/
def interfaceTypes : List String := ["org.apache.camel.RoutesBuilder"]

/-- Whether a name means a type: a single part is its simple name, more parts are its full name. -/
def DottedName.means (n : DottedName) (type : String) : Bool :=
  match n.parts with
  | [part] => (Text.pieces '.' type).getLast? == some part
  | _ => n.text == type

/-- The items whose key an earlier item has already. -/
def repeated {α κ : Type} [DecidableEq κ] (key : α → κ) (seen : List κ) : List α → List α
  | [] => []
  | item :: later =>
    if key item ∈ seen then item :: repeated key seen later else repeated key (key item :: seen) later

namespace Lowered

/-- Reports faults that do not stand in the way of a value. -/
def reportAll (faults : List (Finding SemanticFault)) : Lowered Unit := ⟨some (), faults⟩

end Lowered

/-! ### Fields -/

/-- The value of a field that is declared without one. -/
def TypeName.defaultValue (t : TypeName) : Value :=
  if t.isArray then .null
  else match t.name.text with
    | "int" | "long" | "short" | "byte" => .int 0
    | "boolean" => .bool false
    | _ => .null

/-- The value of a field; one with a fault counts as null. -/
def FieldDeclaration.lower (scope : Scope) (f : FieldDeclaration) : Lowered Value := do
  match f.value with
  | none => return f.type.defaultValue
  | some value =>
    match ← (value.operand scope).attempt with
    | none => return .null
    | some (.const constant) =>
      f.type.checkValue value.span constant.type
      return constant
    | some _ =>
      .report value.span .notConstant
      return .null

/-- The values of fields; each may use the ones before it. -/
def lowerFields (scope : Scope) : List FieldDeclaration → Lowered (List (String × Value))
  | [] => .done scope.fields
  | f :: later => do
    let value ← f.lower scope
    if scope.fields.any (·.1 == f.name.name) then
      .report f.name.span (.duplicateField f.name.name scope.className)
      lowerFields scope later
    else lowerFields { scope with fields := scope.fields ++ [(f.name.name, value)] } later

/-! ### Members -/

namespace ClassDeclaration

/-- The fields of a class in order. -/
def fields (c : ClassDeclaration) : List FieldDeclaration :=
  c.members.filterMap fun | .field d => some d | _ => none

/-- The constructors of a class in order. -/
def constructors (c : ClassDeclaration) : List ConstructorDeclaration :=
  c.members.filterMap fun | .constructor d => some d | _ => none

/-- The methods of a class in order. -/
def methods (c : ClassDeclaration) : List MethodDeclaration :=
  c.members.filterMap fun | .method d => some d | _ => none

/-- Whether a class is a route builder; a parent that is not known is a fault. -/
def lowerParent (c : ClassDeclaration) : Lowered Bool :=
  match c.parent with
  | none => .done false
  | some parent =>
    if routeBuilderTypes.any parent.means then .done true
    else if parent.means objectType then .done false
    else do
      .report parent.span (.unknownClass parent.text)
      return false

/-- The faults of interfaces that are not known. -/
def interfaceFaults (c : ClassDeclaration) : List (Finding SemanticFault) :=
  (c.interfaces.filter fun name => !interfaceTypes.any name.means).map fun name =>
    ⟨name.span, .unknownClass name.text⟩

/-- The faults of methods that have the name and the number of parameters of an earlier one. -/
def methodFaults (c : ClassDeclaration) : List (Finding SemanticFault) :=
  (repeated (fun m : MethodDeclaration => (m.name.name, m.parameters.length)) [] c.methods).map fun m =>
    ⟨m.name.span, .duplicateMethod m.name.name c.name.name⟩

/-- The instructions of the constructor without parameters. A class without constructors has an empty one; a class
all of whose constructors have parameters has none. -/
def lowerConstructor (c : ClassDeclaration) (scope : Scope) : Lowered (Option (List Instruction)) :=
  match c.constructors.filter (·.parameters.isEmpty) with
  | [] => .done (if c.constructors.isEmpty then some [] else none)
  | first :: duplicates => do
    .reportAll (duplicates.map fun d => ⟨d.name.span, .duplicateConstructor c.name.name⟩)
    some <$> first.body.lower { scope with place := .constructor, body := c.name.name }

/-- The faults of a method apart from its body. -/
def signatureFaults (c : ClassDeclaration) (isRouteBuilder : Bool) (m : MethodDeclaration) :
    List (Finding SemanticFault) :=
  let body :=
    match m.body, m.modifiers.isAbstract with
    | none, false => [⟨m.name.span, .missingBody⟩]
    | some _, true => [⟨m.name.span, .abstractBody⟩]
    | none, true =>
      if c.modifiers.isAbstract then []
      else [⟨c.name.span, .notOverridden c.name.name m.name.name c.name.name⟩]
    | some _, false => []
  let result :=
    match m.result with
    | some type =>
      if isRouteBuilder && m.name.name == "configure" && m.parameters.isEmpty then
        [⟨m.name.span, .configureResult c.name.name type.name.text⟩]
      else []
    | none => []
  body ++ result

/-- The instructions of a method; a method with parameters cannot be called and is not lowered. -/
def lowerMethod (c : ClassDeclaration) (scope : Scope) (isRouteBuilder : Bool) (m : MethodDeclaration) :
    Lowered (Option (String × List Instruction)) := do
  .reportAll (c.signatureFaults isRouteBuilder m)
  match m.body with
  | some body =>
    if m.parameters.isEmpty then
      let instructions ← body.lower { scope with place := .method, body := m.name.name }
      return some (m.name.name, instructions)
    else return none
  | none => return none

/-- The program of a class. -/
def lower (c : ClassDeclaration) (package : Option String) : Lowered Program := do
  let name := c.name.name
  let isRouteBuilder ← c.lowerParent
  .reportAll (c.interfaceFaults ++ c.methodFaults)
  let (plain, parameterized) := c.methods.partition (·.parameters.isEmpty)
  let scope : Scope :=
    { className := name
      methods := plain.map (·.name.name)
      methodsWithParameters := parameterized.map (·.name.name) }
  let fields ← lowerFields scope c.fields
  let scope := { scope with fields }
  let constructor ← c.lowerConstructor scope
  let lowered ← .all (c.methods.map (c.lowerMethod scope isRouteBuilder))
  let methods := Dictionary.ofList lowered.reduceOption
  if isRouteBuilder && !c.modifiers.isAbstract && (methods.get? "configure").isNone then
    .report c.name.span (.notOverridden name "configure" "RouteBuilder")
  return {
    name
    qualifiedName := match package with
      | some package => package ++ "." ++ name
      | none => name
    isAbstract := c.modifiers.isAbstract
    isRouteBuilder
    constructor
    methods }

end ClassDeclaration

/-! ### Units -/

/-- Where a fault of the unit as a whole is reported. -/
def unitSpan : Span := ⟨0, 0⟩

/-- The faults of a package name that is not the one that the unit name asks for. -/
def packageFaults (declared : Option DottedName) (expected : Option String) (unitName : String) :
    List (Finding SemanticFault) :=
  match declared, expected with
  | none, none => []
  | none, some package => [⟨unitSpan, .missingPackage package⟩]
  | some name, expected =>
    if expected = some name.text then []
    else [⟨name.span, .packageMismatch name.text unitName⟩]

/-- The programs of classes under their names; a class with the name of an earlier one is a fault. -/
def lowerClasses (package : Option String) (seen : List String) :
    List ClassDeclaration → Lowered (List (String × Program))
  | [] => .done []
  | c :: later =>
    if c.name.name ∈ seen then do
      .report c.name.span (.duplicateClass c.name.name)
      lowerClasses package seen later
    else do
      let program ← c.lower package
      return (c.name.name, program) :: (← lowerClasses package (c.name.name :: seen) later)

namespace SourceUnit

/-- A qualified name as its package and its simple name. -/
def splitName (qualifiedName : String) : Option String × String :=
  match Text.cutLast? '.' qualifiedName with
  | some (package, simple) => (some package, simple)
  | none => (none, qualifiedName)

/-- The program of the class that the qualified name means, or the faults of the unit. -/
def lower (u : SourceUnit) (qualifiedName : String) : Except (List (Finding SemanticFault)) Program :=
  let (package, simple) := splitName qualifiedName
  let classes : Lowered (List (String × Program)) := do
    .reportAll (packageFaults u.package package qualifiedName)
    lowerClasses package [] u.classes
  match (classes.value?.getD []).lookup simple with
  | some program => if classes.faults.isEmpty then .ok program else .error classes.faults
  | none => .error (classes.faults ++ [⟨unitSpan, .classNotFound simple qualifiedName⟩])

end SourceUnit

end RouteDepot.RouteClass
