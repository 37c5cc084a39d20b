import RouteDepot.Diagnostic

/-! # Tokens of route class sources

A token is a word, a literal or a mark, with the bytes that spell it. Words are identifiers unless they are
reserved. The end of the input is not a token: a reader that runs out of tokens has met it.
-/

namespace RouteDepot.RouteClass

/-- The reserved words. -/
inductive Keyword where
  | packageKw | importKw | classKw | interfaceKw | enumKw | extendsKw | implementsKw
  | publicKw | protectedKw | privateKw | staticKw | finalKw | abstractKw
  | voidKw | newKw | throwKw | throwsKw | returnKw | thisKw | trueKw | falseKw | nullKw
  deriving DecidableEq, Repr

/-- The punctuation marks. -/
inductive Mark where
  | parenOpen | parenClose | braceOpen | braceClose | bracketOpen | bracketClose
  | semicolon | comma | dot | atSign | plus | equal | less | greater | star
  deriving DecidableEq, Repr

/-- What a token says. -/
inductive TokenKind where
  | ident (name : String)
  | str (value : String)
  | char (value : Char)
  /-- An integer literal; the reader of tokens keeps it below `2 ^ 63`. -/
  | int (value : Nat)
  | keyword (word : Keyword)
  | mark (sign : Mark)
  deriving DecidableEq, Repr

/-- A token and the bytes that spell it. -/
structure Token where
  kind : TokenKind
  span : Span
  deriving DecidableEq, Repr

namespace Keyword

/-- Every reserved word. -/
def all : List Keyword :=
  [.packageKw, .importKw, .classKw, .interfaceKw, .enumKw, .extendsKw, .implementsKw,
   .publicKw, .protectedKw, .privateKw, .staticKw, .finalKw, .abstractKw,
   .voidKw, .newKw, .throwKw, .throwsKw, .returnKw, .thisKw, .trueKw, .falseKw, .nullKw]

/-- How a reserved word is spelled. -/
def word : Keyword → String
  | .packageKw => "package" | .importKw => "import" | .classKw => "class" | .interfaceKw => "interface"
  | .enumKw => "enum" | .extendsKw => "extends" | .implementsKw => "implements" | .publicKw => "public"
  | .protectedKw => "protected" | .privateKw => "private" | .staticKw => "static" | .finalKw => "final"
  | .abstractKw => "abstract" | .voidKw => "void" | .newKw => "new" | .throwKw => "throw"
  | .throwsKw => "throws" | .returnKw => "return" | .thisKw => "this" | .trueKw => "true"
  | .falseKw => "false" | .nullKw => "null"

/-- The reserved word with this spelling. -/
def ofWord? (spelling : String) : Option Keyword := all.find? (·.word == spelling)

theorem ofWord?_eq_some {spelling : String} {k : Keyword} :
    ofWord? spelling = some k ↔ k.word = spelling := by
  constructor
  · intro found
    simpa using List.find?_some found
  · rintro rfl
    cases k <;> decide

end Keyword

namespace Mark

/-- Every punctuation mark. -/
def all : List Mark :=
  [.parenOpen, .parenClose, .braceOpen, .braceClose, .bracketOpen, .bracketClose,
   .semicolon, .comma, .dot, .atSign, .plus, .equal, .less, .greater, .star]

/-- The character of a punctuation mark. -/
def sign : Mark → Char
  | .parenOpen => '(' | .parenClose => ')' | .braceOpen => '{' | .braceClose => '}'
  | .bracketOpen => '[' | .bracketClose => ']' | .semicolon => ';' | .comma => ',' | .dot => '.'
  | .atSign => '@' | .plus => '+' | .equal => '=' | .less => '<' | .greater => '>' | .star => '*'

/-- The punctuation mark with this character. -/
def ofSign? (c : Char) : Option Mark := all.find? (·.sign == c)

theorem ofSign?_eq_some {c : Char} {m : Mark} : ofSign? c = some m ↔ m.sign = c := by
  constructor
  · intro found
    simpa using List.find?_some found
  · rintro rfl
    cases m <;> decide

end Mark

namespace TokenKind

/-- How a message names a token: identifiers and signs by their spelling, literals by their sort. -/
def describe : TokenKind → String
  | .ident name => s!"identifier '{name}'"
  | .str _ => "string literal"
  | .char _ => "character literal"
  | .int _ => "integer literal"
  | .keyword k => s!"'{k.word}'"
  | .mark m => s!"'{m.sign}'"

/-- How a message names the next token, or the end of the input. -/
def describeNext : Option TokenKind → String
  | some kind => kind.describe
  | none => "end of input"

end TokenKind

end RouteDepot.RouteClass
