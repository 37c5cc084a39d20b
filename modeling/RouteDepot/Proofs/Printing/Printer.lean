import RouteDepot.RouteClass.Syntax
import RouteDepot.RouteClass.Token

/-! # Printing syntax trees

A syntax tree as the tokens that spell it. Parentheses stand only around a sum that is the right part of a sum or the
receiver of a call or a field.
-/

namespace RouteDepot.RouteClass

/-- Printed items with a mark between them. -/
def printJoined (sign : Mark) (items : List (List TokenKind)) : List TokenKind :=
  match items with
  | [] => []
  | first :: later => first ++ later.flatMap fun item => .mark sign :: item

theorem printJoined_append {sign : Mark} {items : List (List TokenKind)} (present : items ≠ [])
    (last : List TokenKind) : printJoined sign (items ++ [last]) = printJoined sign items ++ .mark sign :: last := by
  obtain ⟨first, later, rfl⟩ := List.exists_cons_of_ne_nil present
  simp [printJoined]

/-- A printed item between parentheses. -/
def parenthesize (printed : List TokenKind) : List TokenKind := .mark .parenOpen :: printed ++ [.mark .parenClose]

/-- Printed items between parentheses, with commas between them. -/
def printArguments (items : List (List TokenKind)) : List TokenKind := parenthesize (printJoined .comma items)

def DottedName.print (n : DottedName) : List TokenKind := printJoined .dot (n.parts.map fun part => [.ident part])

def TypeName.print (t : TypeName) : List TokenKind :=
  t.name.print ++ if t.isArray then [.mark .bracketOpen, .mark .bracketClose] else []

def Parameter.print (p : Parameter) : List TokenKind := p.type.print ++ [.ident p.name.name]

/-- The words of modifiers. -/
def Modifiers.words (m : Modifiers) : List Keyword :=
  (if m.isPublic then [.publicKw] else []) ++ (if m.isProtected then [.protectedKw] else []) ++
  (if m.isPrivate then [.privateKw] else []) ++ (if m.isStatic then [.staticKw] else []) ++
  (if m.isFinal then [.finalKw] else []) ++ if m.isAbstract then [.abstractKw] else []

/-- The words of modifiers and then their at-sign names. -/
def Modifiers.print (m : Modifiers) : List TokenKind :=
  m.words.map .keyword ++ m.annotations.flatMap fun name => .mark .atSign :: name.print

def Literal.print : Literal → TokenKind
  | str value => .str value
  | char value => .char value
  | int value => .int value
  | bool true => .keyword .trueKw
  | bool false => .keyword .falseKw
  | null => .keyword .nullKw

namespace Expression

/-- Whether an expression is a sum. -/
def isSum : Expression → Bool
  | concat .. => true
  | _ => false

/-- A printed expression, in parentheses if it is a sum. -/
def enclose (e : Expression) (printed : List TokenKind) : List TokenKind :=
  if e.isSum then parenthesize printed else printed

mutual

def print : Expression → List TokenKind
  | literal value _ => [value.print]
  | name ident => [.ident ident.name]
  | this _ => [.keyword .thisKw]
  | field target member => target.enclose target.print ++ [.mark .dot, .ident member.name]
  | call callee args _ => .ident callee.name :: printArguments (printAll args)
  | callOn target callee args _ =>
    target.enclose target.print ++ .mark .dot :: .ident callee.name :: printArguments (printAll args)
  | new type args _ => .keyword .newKw :: type.print ++ printArguments (printAll args)
  | concat left right => left.print ++ .mark .plus :: right.enclose right.print

/-- Every expression of a list, printed. -/
def printAll : List Expression → List (List TokenKind)
  | [] => []
  | e :: later => e.print :: printAll later

end

end Expression

/-- An initial value behind an equals sign, if there is one. -/
def printValue (value : Option Expression) : List TokenKind :=
  match value with
  | some e => .mark .equal :: e.print
  | none => []

/-- Printed statements between braces. -/
def enbrace (printed : List TokenKind) : List TokenKind := .mark .braceOpen :: printed ++ [.mark .braceClose]

namespace Statement

mutual

def print : Statement → List TokenKind
  | expression value => value.print ++ [.mark .semicolon]
  | declare type name value => type.print ++ .ident name.name :: printValue value ++ [.mark .semicolon]
  | throw value _ => .keyword .throwKw :: value.print ++ [.mark .semicolon]
  | .return _ => [.keyword .returnKw, .mark .semicolon]
  | block body _ => enbrace (printAll body)
  | empty => [.mark .semicolon]

/-- Statements printed one after another. -/
def printAll : List Statement → List TokenKind
  | [] => []
  | s :: later => s.print ++ printAll later

end

end Statement

def Block.print (b : Block) : List TokenKind := enbrace (Statement.printAll b.body)

/-- Names behind a word, unless there are none. -/
def printNames (word : Keyword) (names : List DottedName) : List TokenKind :=
  if names.isEmpty then [] else .keyword word :: printJoined .comma (names.map DottedName.print)

def FieldDeclaration.print (f : FieldDeclaration) : List TokenKind :=
  f.modifiers.print ++ f.type.print ++ .ident f.name.name :: printValue f.value ++ [.mark .semicolon]

def ConstructorDeclaration.print (c : ConstructorDeclaration) : List TokenKind :=
  c.modifiers.print ++ .ident c.name.name :: printArguments (c.parameters.map Parameter.print) ++ c.body.print

def MethodDeclaration.print (m : MethodDeclaration) : List TokenKind :=
  m.modifiers.print ++ (m.result.elim [.keyword .voidKw] TypeName.print) ++ .ident m.name.name ::
    printArguments (m.parameters.map Parameter.print) ++ printNames .throwsKw m.throws ++
    m.body.elim [.mark .semicolon] Block.print

def Member.print : Member → List TokenKind
  | field f => f.print
  | constructor c => c.print
  | method m => m.print

def ClassDeclaration.print (c : ClassDeclaration) : List TokenKind :=
  c.modifiers.print ++ .keyword .classKw :: .ident c.name.name ::
    (c.parent.elim [] fun parent => .keyword .extendsKw :: parent.print) ++ printNames .implementsKw c.interfaces ++
    enbrace (c.members.flatMap Member.print)

/-- One part of the name of an import; a star is a mark. -/
def printImportPart (part : String) : TokenKind := if part = "*" then .mark .star else .ident part

def printImport (n : DottedName) : List TokenKind :=
  .keyword .importKw :: printJoined .dot (n.parts.map fun part => [printImportPart part]) ++ [.mark .semicolon]

def SourceUnit.print (u : SourceUnit) : List TokenKind :=
  (u.package.elim [] fun name => .keyword .packageKw :: name.print ++ [.mark .semicolon]) ++
    u.imports.flatMap printImport ++ u.classes.flatMap ClassDeclaration.print

end RouteDepot.RouteClass
