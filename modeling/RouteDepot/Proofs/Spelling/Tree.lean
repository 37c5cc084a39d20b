import Mathlib.Data.List.Forall2
import RouteDepot.Proofs.Printing.Limits

/-! # How trees are written

The tokens that may spell a syntax tree: those that print it, and others that differ from them only in tokens without
meaning. These are parentheses that need not be there, semicolons around members and classes, arguments of at-sign
names, `static` in an import, `final` in front of a type, the exceptions of a constructor, and the order and repetition
of modifiers. Every other token has its place in the tree.
-/

namespace RouteDepot.RouteClass

/-! ### Tokens without meaning -/

/-- Tokens whose parentheses close each other. -/
inductive Balanced : List TokenKind → Prop
  | nil : Balanced []
  | plain {kind : TokenKind} {later : List TokenKind} (notOpen : kind ≠ .mark .parenOpen)
    (notClose : kind ≠ .mark .parenClose) (more : Balanced later) : Balanced (kind :: later)
  | nested {inner later : List TokenKind} (inside : Balanced inner) (more : Balanced later) :
    Balanced (parenthesize inner ++ later)

/-- A word that may be left out. -/
def Optionally (word : Keyword) (tokens : List TokenKind) : Prop := tokens = [] ∨ tokens = [.keyword word]

/-- Items in their order, with any number of semicolons before, between and behind them. -/
inductive AmongSemicolons {α : Type} (spelledBy : α → List TokenKind → Prop) : List α → List TokenKind → Prop
  | nil : AmongSemicolons spelledBy [] []
  | semicolon {items : List α} {later : List TokenKind} (more : AmongSemicolons spelledBy items later) :
    AmongSemicolons spelledBy items (.mark .semicolon :: later)
  | item {a : α} {items : List α} {first later : List TokenKind} (spelled : spelledBy a first)
    (more : AmongSemicolons spelledBy items later) : AmongSemicolons spelledBy (a :: items) (first ++ later)

/-! ### Expressions -/

mutual

/-- The tokens that spell an expression where any expression may stand. -/
inductive Expression.SpelledBy : Expression → List TokenKind → Prop
  | operand {e : Expression} {tokens : List TokenKind} (spelled : Expression.SpelledAsOperand e tokens) :
    Expression.SpelledBy e tokens
  | concat {left right : Expression} {first second : List TokenKind} (spelledLeft : Expression.SpelledBy left first)
    (spelledRight : Expression.SpelledAsOperand right second) :
    Expression.SpelledBy (.concat left right) (first ++ .mark .plus :: second)

/-- The tokens that spell an expression as the receiver of a call or a field, or as the right part of a sum: a sum
stands in parentheses there. -/
inductive Expression.SpelledAsOperand : Expression → List TokenKind → Prop
  | literal (value : Literal) (span : Span) : Expression.SpelledAsOperand (.literal value span) [value.print]
  | name (ident : Ident) : Expression.SpelledAsOperand (.name ident) [.ident ident.name]
  | this (span : Span) : Expression.SpelledAsOperand (.this span) [.keyword .thisKw]
  | field {target : Expression} {tokens : List TokenKind} (member : Ident)
    (spelled : Expression.SpelledAsOperand target tokens) :
    Expression.SpelledAsOperand (.field target member) (tokens ++ [.mark .dot, .ident member.name])
  | call {args : List Expression} {items : List (List TokenKind)} (callee : Ident) (span : Span)
    (spelled : List.Forall₂ Expression.SpelledBy args items) :
    Expression.SpelledAsOperand (.call callee args span) (.ident callee.name :: printArguments items)
  | callOn {target : Expression} {tokens : List TokenKind} {args : List Expression} {items : List (List TokenKind)}
    (callee : Ident) (span : Span) (spelledTarget : Expression.SpelledAsOperand target tokens)
    (spelled : List.Forall₂ Expression.SpelledBy args items) :
    Expression.SpelledAsOperand (.callOn target callee args span)
      (tokens ++ .mark .dot :: .ident callee.name :: printArguments items)
  | new {args : List Expression} {items : List (List TokenKind)} (type : DottedName) (span : Span)
    (spelled : List.Forall₂ Expression.SpelledBy args items) :
    Expression.SpelledAsOperand (.new type args span) (.keyword .newKw :: type.print ++ printArguments items)
  | parentheses {e : Expression} {tokens : List TokenKind} (spelled : Expression.SpelledBy e tokens) :
    Expression.SpelledAsOperand e (parenthesize tokens)

end

/-- An initial value behind an equals sign, if there is one. -/
inductive ValueSpelledBy : Option Expression → List TokenKind → Prop
  | absent : ValueSpelledBy none []
  | present {e : Expression} {tokens : List TokenKind} (spelled : e.SpelledBy tokens) :
    ValueSpelledBy (some e) (.mark .equal :: tokens)

/-! ### Statements -/

/-- The tokens that spell a statement. -/
inductive Statement.SpelledBy : Statement → List TokenKind → Prop
  | expression {value : Expression} {tokens : List TokenKind} (spelled : value.SpelledBy tokens) :
    Statement.SpelledBy (.expression value) (tokens ++ [.mark .semicolon])
  | declare {value : Option Expression} {final initial : List TokenKind} (type : TypeName) (name : Ident)
    (constant : Optionally .finalKw final) (spelled : ValueSpelledBy value initial) :
    Statement.SpelledBy (.declare type name value)
      (final ++ type.print ++ .ident name.name :: initial ++ [.mark .semicolon])
  | throw {value : Expression} {tokens : List TokenKind} (span : Span) (spelled : value.SpelledBy tokens) :
    Statement.SpelledBy (.throw value span) (.keyword .throwKw :: tokens ++ [.mark .semicolon])
  | return (span : Span) : Statement.SpelledBy (.return span) [.keyword .returnKw, .mark .semicolon]
  | block {body : List Statement} {items : List (List TokenKind)} (span : Span)
    (spelled : List.Forall₂ Statement.SpelledBy body items) :
    Statement.SpelledBy (.block body span) (enbrace items.flatten)
  | empty : Statement.SpelledBy .empty [.mark .semicolon]

/-- The tokens that spell a block. -/
def Block.SpelledBy (b : Block) (tokens : List TokenKind) : Prop :=
  ∃ items, List.Forall₂ Statement.SpelledBy b.body items ∧ tokens = enbrace items.flatten

/-! ### Declarations -/

/-- A modifier where it stands: a word, or an at-sign name with what is written behind it. -/
inductive WrittenModifier where
  | word (word : Keyword)
  | atName (name : DottedName) (arguments : List TokenKind)

namespace WrittenModifier

def print : WrittenModifier → List TokenKind
  | word k => [.keyword k]
  | atName name arguments => .mark .atSign :: name.print ++ arguments

/-- The at-sign name, if it is one. -/
def name? : WrittenModifier → Option DottedName
  | word _ => none
  | atName name _ => some name

/-- Nothing is written behind an at-sign name but tokens in parentheses. -/
def IsPlain : WrittenModifier → Prop
  | word _ => True
  | atName _ arguments => arguments = [] ∨ ∃ inner, Balanced inner ∧ arguments = parenthesize inner

end WrittenModifier

/-- The tokens that spell modifiers: their words in any order and as often as one likes, and among them their at-sign
names in order. -/
def Modifiers.SpelledBy (m : Modifiers) (tokens : List TokenKind) : Prop :=
  ∃ written : List WrittenModifier, tokens = written.flatMap WrittenModifier.print ∧
    (∀ modifier ∈ written, modifier.IsPlain) ∧ (∀ word, .word word ∈ written ↔ word ∈ m.words) ∧
    written.filterMap WrittenModifier.name? = m.annotations

/-- The tokens that spell a parameter. -/
def Parameter.SpelledBy (p : Parameter) (tokens : List TokenKind) : Prop :=
  ∃ final, Optionally .finalKw final ∧ tokens = final ++ p.print

/-- The tokens that spell parameters and their parentheses. -/
def ParametersSpelledBy (list : List Parameter) (tokens : List TokenKind) : Prop :=
  ∃ items, List.Forall₂ Parameter.SpelledBy list items ∧ tokens = printArguments items

/-- The tokens that spell a body, or the semicolon in its place. -/
inductive BodySpelledBy : Option Block → List TokenKind → Prop
  | absent : BodySpelledBy none [.mark .semicolon]
  | present {b : Block} {tokens : List TokenKind} (spelled : b.SpelledBy tokens) : BodySpelledBy (some b) tokens

/-- The tokens that spell a member of a class. -/
inductive Member.SpelledBy : Member → List TokenKind → Prop
  | field {f : FieldDeclaration} {words initial : List TokenKind} (modified : f.modifiers.SpelledBy words)
    (spelled : ValueSpelledBy f.value initial) :
    Member.SpelledBy (.field f) (words ++ f.type.print ++ .ident f.name.name :: initial ++ [.mark .semicolon])
  | constructor {c : ConstructorDeclaration} {words parameters body : List TokenKind}
    (modified : c.modifiers.SpelledBy words) (declared : ParametersSpelledBy c.parameters parameters)
    (throws : List DottedName) (named : ∀ name ∈ throws, name.WellFormed) (spelled : c.body.SpelledBy body) :
    Member.SpelledBy (.constructor c)
      (words ++ .ident c.name.name :: parameters ++ printNames .throwsKw throws ++ body)
  | method {m : MethodDeclaration} {words parameters body : List TokenKind} (modified : m.modifiers.SpelledBy words)
    (declared : ParametersSpelledBy m.parameters parameters) (spelled : BodySpelledBy m.body body) :
    Member.SpelledBy (.method m)
      (words ++ (m.result.elim [.keyword .voidKw] TypeName.print) ++ .ident m.name.name :: parameters ++
        printNames .throwsKw m.throws ++ body)

/-- The tokens that spell a class. -/
def ClassDeclaration.SpelledBy (c : ClassDeclaration) (tokens : List TokenKind) : Prop :=
  ∃ words members, c.modifiers.SpelledBy words ∧ AmongSemicolons Member.SpelledBy c.members members ∧
    tokens = words ++ .keyword .classKw :: .ident c.name.name ::
      (c.parent.elim [] fun parent => .keyword .extendsKw :: parent.print) ++ printNames .implementsKw c.interfaces ++
      enbrace members

/-- The tokens that spell the name of an import; a star at its end is a mark. -/
inductive ImportedNameSpelledBy : DottedName → List TokenKind → Prop
  | one (n : DottedName) : ImportedNameSpelledBy n n.print
  | many (n : DottedName) (span : Span) (named : n.WellFormed) :
    ImportedNameSpelledBy ⟨n.parts ++ ["*"], span⟩ (n.print ++ [.mark .dot, .mark .star])

/-- The tokens that spell an import. -/
def ImportSpelledBy (n : DottedName) (tokens : List TokenKind) : Prop :=
  ∃ static name, Optionally .staticKw static ∧ ImportedNameSpelledBy n name ∧
    tokens = .keyword .importKw :: static ++ name ++ [.mark .semicolon]

/-- The tokens that spell a source unit. -/
def SourceUnit.SpelledBy (u : SourceUnit) (tokens : List TokenKind) : Prop :=
  ∃ imports classes, List.Forall₂ ImportSpelledBy u.imports imports ∧
    AmongSemicolons ClassDeclaration.SpelledBy u.classes classes ∧
    tokens = (u.package.elim [] fun name => .keyword .packageKw :: name.print ++ [.mark .semicolon]) ++
      imports.flatten ++ classes

end RouteDepot.RouteClass
