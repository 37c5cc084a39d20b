import Mathlib.Data.List.Forall2
import RouteDepot.RouteClass.Token.Scan

/-! # How tokens are written

The texts that stand for a token, and the gaps that may stand between tokens. A literal can be written in many ways:
a character as itself or escaped, a number with zeros in front, with underscores between its digits and with a suffix.
-/

namespace RouteDepot.RouteClass

/-! ### Gaps -/

/-- Blanks, comments up to the end of a line, and closed comments, one after another. -/
inductive Gap : List Char → Prop
  | nil : Gap []
  | blank {c : Char} {later : List Char} (white : Text.isBlank c) (more : Gap later) : Gap (c :: later)
  | lineComment {text later : List Char} (line : '\n' ∉ text) (more : Gap later) :
    Gap ('/' :: '/' :: text ++ '\n' :: later)
  | comment {text later : List Char} (unclosed : ¬ ['*', '/'] <:+: text) (more : Gap later) :
    Gap ('/' :: '*' :: text ++ '*' :: '/' :: later)

/-! ### Literals -/

/-- The letters that may follow a backslash, and the characters that they stand for. -/
def shortEscapes : List (Char × Char) :=
  [('n', '\n'), ('t', '\t'), ('r', '\r'), ('b', '\x08'), ('f', '\x0c'), ('0', '\x00'), ('\\', '\\'), ('\'', '\''),
   ('"', '"')]

/-- A hexadecimal digit in either case, and its value. -/
def SpellsHexDigit (value : Nat) (digit : Char) : Prop :=
  value < 16 ∧ (digit = value.digitChar ∨ digit = value.digitChar.toUpper)

instance (value : Nat) (digit : Char) : Decidable (SpellsHexDigit value digit) := inferInstanceAs (Decidable (_ ∧ _))

/-- What may follow a backslash for a character. -/
inductive SpellsEscape : Char → List Char → Prop
  | short {letter c : Char} (listed : (letter, c) ∈ shortEscapes) : SpellsEscape c [letter]
  | unicode {c first second third last : Char} {a b d e : Nat} (highest : SpellsHexDigit a first)
    (high : SpellsHexDigit b second) (low : SpellsHexDigit d third) (lowest : SpellsHexDigit e last)
    (code : c.toNat = 4096 * a + 256 * b + 16 * d + e) : SpellsEscape c ['u', first, second, third, last]

/-- What may stand between quotes for a character. -/
inductive SpellsCharacter (quote : Char) : Char → List Char → Prop
  | raw {c : Char} (notQuote : c ≠ quote) (notBackslash : c ≠ '\\') (notLineEnd : c ≠ '\n') :
    SpellsCharacter quote c [c]
  | escaped {c : Char} {text : List Char} (spells : SpellsEscape c text) : SpellsCharacter quote c ('\\' :: text)

/-- The digits of a number: zeros, and then its decimal digits, with underscores anywhere behind the first digit. -/
def SpellsDigits (n : Nat) (text : List Char) : Prop :=
  text.head? ≠ some '_' ∧ ∃ zeros, text.filter (· != '_') = List.replicate zeros '0' ++ Nat.toDigits 10 n

/-! ### Tokens -/

/-- The texts that stand for a token. -/
inductive TokenKind.Spells : TokenKind → List Char → Prop
  | ident {first : Char} {later : List Char} (starts : Scan.isWordStart first)
    (continues : ∀ c ∈ later, Scan.isWordPart c) (free : ∀ k : Keyword, k.word ≠ String.ofList (first :: later)) :
    Spells (.ident (String.ofList (first :: later))) (first :: later)
  | keyword (k : Keyword) : Spells (.keyword k) k.word.toList
  | mark (m : Mark) : Spells (.mark m) [m.sign]
  | str {value : String} {parts : List (List Char)}
    (spells : List.Forall₂ (SpellsCharacter '"') value.toList parts) :
    Spells (.str value) ('"' :: parts.flatten ++ ['"'])
  | char {value : Char} {text : List Char} (spells : SpellsCharacter '\'' value text) :
    Spells (.char value) ('\'' :: text ++ ['\''])
  | int {n : Nat} {digits suffix : List Char} (small : n < Scan.integerLimit) (spells : SpellsDigits n digits)
    (marked : suffix ∈ [[], ['l'], ['L']]) : Spells (.int n) (digits ++ suffix)

/-- Tokens written one after another, each with a gap behind it; only the gap behind the last one may be empty. -/
inductive Written : List TokenKind → List Char → Prop
  | nil : Written [] []
  | cons {kind : TokenKind} {later : List TokenKind} {spelled gap text : List Char} (spells : kind.Spells spelled)
    (separated : Gap gap) (apart : later = [] ∨ gap ≠ []) (more : Written later text) :
    Written (kind :: later) (spelled ++ gap ++ text)

end RouteDepot.RouteClass
