import RouteDepot.Diagnostic

/-! # Syntax trees of route class sources

A source unit holds a package name, imports and classes; a class holds fields, constructors and methods; a body is a
block of statements over expressions. Names and the larger phrases keep the bytes that they cover.
-/

namespace RouteDepot.RouteClass

/-- A single name. -/
structure Ident where
  name : String
  span : Span
  deriving DecidableEq, Repr

/-- A name of one or more parts joined by dots. -/
structure DottedName where
  parts : List String
  span : Span
  deriving DecidableEq, Repr

namespace DottedName

/-- The parts joined by dots. -/
def text (n : DottedName) : String := ".".intercalate n.parts

/-- The last part. -/
def last (n : DottedName) : String := n.parts.getLastD ""

end DottedName

/-- The words and the at-sign names in front of a declaration. -/
structure Modifiers where
  isPublic : Bool := false
  isProtected : Bool := false
  isPrivate : Bool := false
  isStatic : Bool := false
  isFinal : Bool := false
  isAbstract : Bool := false
  annotations : List DottedName := []
  deriving DecidableEq, Repr

/-- A type as it is written: a name, perhaps followed by a pair of brackets. -/
structure TypeName where
  name : DottedName
  isArray : Bool
  deriving DecidableEq, Repr

/-- A parameter of a method or constructor. -/
structure Parameter where
  type : TypeName
  name : Ident
  deriving DecidableEq, Repr

/-- A value written out in the source. -/
inductive Literal where
  | str (value : String)
  | char (value : Char)
  | int (value : Nat)
  | bool (value : Bool)
  | null
  deriving DecidableEq, Repr

/-- An expression. -/
inductive Expression where
  | literal (value : Literal) (span : Span)
  | name (ident : Ident)
  | this (span : Span)
  | field (target : Expression) (name : Ident)
  /-- A call without a receiver. -/
  | call (name : Ident) (args : List Expression) (span : Span)
  /-- A call on a receiver. -/
  | callOn (target : Expression) (name : Ident) (args : List Expression) (span : Span)
  | new (type : DottedName) (args : List Expression) (span : Span)
  | concat (left right : Expression)
  deriving Repr

namespace Expression

/-- The offset at which an expression begins; parentheses around it do not count. -/
def start : Expression → Nat
  | literal _ span | this span | call _ _ span | callOn _ _ _ span | new _ _ span => span.start
  | name ident => ident.span.start
  | field target _ => target.start
  | concat left _ => left.start

/-- The offset at which an expression ends; parentheses around it do not count. -/
def stop : Expression → Nat
  | literal _ span | this span | call _ _ span | callOn _ _ _ span | new _ _ span => span.stop
  | name ident => ident.span.stop
  | field _ member => member.span.stop
  | concat _ right => right.stop

/-- The bytes that an expression covers. -/
def span (e : Expression) : Span := ⟨e.start, e.stop⟩

end Expression

/-- A statement. -/
inductive Statement where
  | expression (value : Expression)
  | declare (type : TypeName) (name : Ident) (value : Option Expression)
  | throw (value : Expression) (span : Span)
  | return (span : Span)
  | block (body : List Statement) (span : Span)
  | empty
  deriving Repr

/-- The bytes that a statement is reported at; an empty one is never reported. -/
def Statement.span? : Statement → Option Span
  | expression value => some value.span
  | declare _ name _ => some name.span
  | throw _ span | .return span | block _ span => some span
  | empty => none

/-- Statements between braces. -/
structure Block where
  body : List Statement
  span : Span
  deriving Repr

structure FieldDeclaration where
  modifiers : Modifiers
  type : TypeName
  name : Ident
  value : Option Expression
  deriving Repr

structure ConstructorDeclaration where
  modifiers : Modifiers
  name : Ident
  parameters : List Parameter
  body : Block
  deriving Repr

structure MethodDeclaration where
  modifiers : Modifiers
  /-- Absent for `void`. -/
  result : Option TypeName
  name : Ident
  parameters : List Parameter
  throws : List DottedName
  /-- Absent when a semicolon stands in its place. -/
  body : Option Block
  deriving Repr

/-- A member of a class. -/
inductive Member where
  | field (declaration : FieldDeclaration)
  | constructor (declaration : ConstructorDeclaration)
  | method (declaration : MethodDeclaration)
  deriving Repr

structure ClassDeclaration where
  modifiers : Modifiers
  name : Ident
  parent : Option DottedName
  interfaces : List DottedName
  members : List Member
  span : Span
  deriving Repr

/-- A whole source. -/
structure SourceUnit where
  package : Option DottedName
  imports : List DottedName
  classes : List ClassDeclaration
  deriving Repr

end RouteDepot.RouteClass
