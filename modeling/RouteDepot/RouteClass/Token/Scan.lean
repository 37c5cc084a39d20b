import RouteDepot.RouteClass.Token
import RouteDepot.Text.Alphabetic
import RouteDepot.Text.Blank
import RouteDepot.Text.Hex
import RouteDepot.Text.Numeric

/-! # Reading tokens

A source is read from left to right into tokens, past blanks and comments. Reading never stops at a fault: it is
recorded with its place, and reading goes on behind it. Every step leaves a shorter rest, and this is what
ends the reading.
-/

namespace RouteDepot.RouteClass

/-- What can be wrong with the spelling of a token. -/
inductive LexicalFault where
  | unterminatedComment
  | illegalCharacter (c : Char)
  | floatLiteral
  | integerTooLarge
  | illegalUnicodeEscape
  | illegalEscape
  | unclosedString
  | emptyCharacter
  | unclosedCharacter
  deriving DecidableEq, Repr

/-- The wording of a lexical fault. -/
def LexicalFault.message : LexicalFault → String
  | .unterminatedComment => "unterminated comment"
  | .illegalCharacter c => s!"illegal character '{c}'"
  | .floatLiteral => "floating point literals are not supported"
  | .integerTooLarge => "integer number too large"
  | .illegalUnicodeEscape => "illegal unicode escape"
  | .illegalEscape => "illegal escape character"
  | .unclosedString => "unclosed string literal"
  | .emptyCharacter => "empty character literal"
  | .unclosedCharacter => "unclosed character literal"

/-- What has been read, the byte offset and the characters behind it, and the faults met. -/
structure Scan (α : Type) where
  value : α
  offset : Nat
  rest : List Char
  faults : List (Finding LexicalFault)

namespace Scan

/-! ### Escapes -/

/-- The characters that a backslash and one letter stand for. -/
def shortEscape? : Char → Option Char
  | 'n' => some '\n'
  | 't' => some '\t'
  | 'r' => some '\r'
  | 'b' => some '\x08'
  | 'f' => some '\x0c'
  | '0' => some '\x00'
  | '\\' => some '\\'
  | '\'' => some '\''
  | '"' => some '"'
  | _ => none

/-- The character of four hexadecimal digits; surrogates are no characters. -/
def hexCharacter? (digits : List Nat) : Option Char :=
  if digits.length = 4 then Text.character? (Text.ofDigits 16 digits) else none

/-- The hexadecimal digits, at most four, at the front of a text. -/
def hexRun (cs : List Char) : List Nat :=
  ((cs.take 4).takeWhile fun c => (Text.hexDigit? c).isSome).filterMap Text.hexDigit?

/-- Reads what follows a backslash. A fault covers the bytes from `start`. -/
def escape (start offset : Nat) : List Char → Scan (Option Char)
  | [] => ⟨none, offset, [], [⟨⟨start, offset⟩, .illegalEscape⟩]⟩
  | 'u' :: cs =>
    let digits := hexRun cs
    let stop := offset + 1 + digits.length
    match hexCharacter? digits with
    | some value => ⟨some value, stop, cs.drop digits.length, []⟩
    | none => ⟨none, stop, cs.drop digits.length, [⟨⟨start, stop⟩, .illegalUnicodeEscape⟩]⟩
  | c :: cs =>
    match shortEscape? c with
    | some value => ⟨some value, offset + 1, cs, []⟩
    | none =>
      let stop := offset + c.utf8Size
      ⟨none, stop, cs, [⟨⟨start, stop⟩, .illegalEscape⟩]⟩

theorem escape_rest_length_le (start offset : Nat) (cs : List Char) :
    (escape start offset cs).rest.length ≤ cs.length := by
  unfold escape
  split
  · simp
  · dsimp only
    split <;> simp <;> omega
  · split <;> simp

/-! ### Literals and words -/

/-- Reads the inside of a string literal that begins at `start`, and its closing quote. A line end or the end of
the source leaves it unclosed; a faulty escape adds nothing to the value. -/
def string (start offset : Nat) (cs : List Char) : Scan (List Char) :=
  match cs with
  | [] => ⟨[], offset, [], [⟨⟨start, offset⟩, .unclosedString⟩]⟩
  | '"' :: cs => ⟨[], offset + 1, cs, []⟩
  | '\n' :: cs => ⟨[], offset, '\n' :: cs, [⟨⟨start, offset⟩, .unclosedString⟩]⟩
  | '\\' :: cs =>
    let escaped := escape offset (offset + 1) cs
    let more := string start escaped.offset escaped.rest
    ⟨escaped.value.toList ++ more.value, more.offset, more.rest, escaped.faults ++ more.faults⟩
  | c :: cs =>
    let more := string start (offset + c.utf8Size) cs
    { more with value := c :: more.value }
termination_by cs.length
decreasing_by
  · exact Nat.lt_succ_of_le (escape_rest_length_le ..)
  · simp

theorem string_rest_length_le (start offset : Nat) (cs : List Char) :
    (string start offset cs).rest.length ≤ cs.length := by
  fun_induction string start offset cs with
  | case1 => simp
  | case2 => simp
  | case3 => simp
  | case4 offset cs escaped more ih =>
    exact Nat.le_succ_of_le (Nat.le_trans ih (escape_rest_length_le ..))
  | case5 offset c cs _ _ _ more ih => exact Nat.le_succ_of_le ih

/-- Reads the closing quote of a character literal that begins at `start`. -/
def closeCharacter (start : Nat) (value : Char) (offset : Nat) (cs : List Char)
    (faults : List (Finding LexicalFault)) : Scan Char :=
  match cs with
  | '\'' :: cs => ⟨value, offset + 1, cs, faults⟩
  | cs => ⟨value, offset, cs, faults ++ [⟨⟨start, offset⟩, .unclosedCharacter⟩]⟩

/-- Reads a character literal that begins at `start`, behind its opening quote. A faulty literal stands for the
null character, unless only its closing quote is missing. -/
def character (start offset : Nat) : List Char → Scan Char
  | [] => ⟨'\x00', offset, [], [⟨⟨start, offset⟩, .emptyCharacter⟩]⟩
  | '\'' :: cs => ⟨'\x00', offset + 1, cs, [⟨⟨start, offset + 1⟩, .emptyCharacter⟩]⟩
  | '\n' :: cs => ⟨'\x00', offset + 1, cs, [⟨⟨start, offset + 1⟩, .emptyCharacter⟩]⟩
  | '\\' :: cs =>
    let escaped := escape start (offset + 1) cs
    closeCharacter start (escaped.value.getD '\x00') escaped.offset escaped.rest escaped.faults
  | c :: cs => closeCharacter start c (offset + c.utf8Size) cs []

theorem closeCharacter_rest_length_le (start : Nat) (value : Char) (offset : Nat) (cs : List Char)
    (faults : List (Finding LexicalFault)) :
    (closeCharacter start value offset cs faults).rest.length ≤ cs.length := by
  unfold closeCharacter
  split <;> simp

theorem character_rest_length_le (start offset : Nat) (cs : List Char) :
    (character start offset cs).rest.length ≤ cs.length := by
  unfold character
  split
  · simp
  · simp
  · simp
  · exact Nat.le_succ_of_le
      (Nat.le_trans (closeCharacter_rest_length_le ..) (escape_rest_length_le ..))
  · exact Nat.le_succ_of_le (closeCharacter_rest_length_le ..)

/-- A decimal digit, or an underscore between digits. -/
def isNumberPart (c : Char) : Bool := c.isDigit || c == '_'

/-- The value of the decimal digits of a text; underscores only separate them. -/
def decimalValue (cs : List Char) : Nat :=
  (cs.filter (· != '_')).foldl (fun value c => 10 * value + (c.toNat - '0'.toNat)) 0

/-- The number of integers that a literal can stand for: two to the power of 63. -/
def integerLimit : Nat := 0x8000000000000000

/-- Reads an integer literal that begins at `start` with the digit `first`. A fraction is a fault, and so is a
value that does not fit into 63 bits; both stand for zero. -/
def number (start : Nat) (first : Char) (cs : List Char) : Scan Nat :=
  let body := cs.takeWhile isNumberPart
  let offset := start + 1 + body.length
  let value := decimalValue (first :: body)
  let whole (offset : Nat) (rest : List Char) : Scan Nat :=
    if value < integerLimit then ⟨value, offset, rest, []⟩
    else ⟨0, offset, rest, [⟨⟨start, offset⟩, .integerTooLarge⟩]⟩
  match cs.dropWhile isNumberPart with
  | '.' :: d :: more =>
    if d.isDigit then
      let stop := offset + 2 + (more.takeWhile Char.isDigit).length
      ⟨0, stop, more.dropWhile Char.isDigit, [⟨⟨start, stop⟩, .floatLiteral⟩]⟩
    else whole offset ('.' :: d :: more)
  | 'l' :: more => whole (offset + 1) more
  | 'L' :: more => whole (offset + 1) more
  | rest => whole offset rest

theorem length_dropWhile_le {α : Type} (p : α → Bool) (l : List α) :
    (l.dropWhile p).length ≤ l.length :=
  (List.dropWhile_suffix p).length_le

theorem number_rest_length_le (start : Nat) (first : Char) (cs : List Char) :
    (number start first cs).rest.length ≤ cs.length := by
  have bound := length_dropWhile_le isNumberPart cs
  simp only [number]
  split
  · rename_i d more shape
    rw [shape, List.length_cons, List.length_cons] at bound
    have shorter := length_dropWhile_le Char.isDigit more
    repeat' split
    all_goals simp only [List.length_cons]; omega
  · rename_i more shape
    rw [shape, List.length_cons] at bound
    split <;> simp only <;> omega
  · rename_i more shape
    rw [shape, List.length_cons] at bound
    split <;> simp only <;> omega
  · split <;> exact bound

/-- The characters that may begin a word. -/
def isWordStart (c : Char) : Bool := Text.isAlphabetic c || c == '_' || c == '$'

/-- The characters that may continue a word. -/
def isWordPart (c : Char) : Bool := Text.isAlphabetic c || Text.isNumeric c || c == '_' || c == '$'

/-- The token of a word: a reserved word or an identifier. -/
def wordKind (spelling : String) : TokenKind :=
  match Keyword.ofWord? spelling with
  | some k => .keyword k
  | none => .ident spelling

/-! ### Tokens -/

/-- Reads the token that begins with `first` at `start`; a character that begins none is a fault. -/
def token (start : Nat) (first : Char) (cs : List Char) : Scan (Option TokenKind) :=
  if first = '"' then
    let s := string start (start + 1) cs
    ⟨some (.str (String.ofList s.value)), s.offset, s.rest, s.faults⟩
  else if first = '\'' then
    let s := character start (start + 1) cs
    ⟨some (.char s.value), s.offset, s.rest, s.faults⟩
  else if first.isDigit then
    let s := number start first cs
    ⟨some (.int s.value), s.offset, s.rest, s.faults⟩
  else if isWordStart first then
    let spelling := first :: cs.takeWhile isWordPart
    ⟨some (wordKind (String.ofList spelling)), start + Text.byteLength spelling, cs.dropWhile isWordPart, []⟩
  else
    let stop := start + first.utf8Size
    match Mark.ofSign? first with
    | some m => ⟨some (.mark m), stop, cs, []⟩
    | none => ⟨none, stop, cs, [⟨⟨start, stop⟩, .illegalCharacter first⟩]⟩

theorem token_rest_length_le (start : Nat) (first : Char) (cs : List Char) :
    (token start first cs).rest.length ≤ cs.length := by
  unfold token
  split
  · exact string_rest_length_le ..
  split
  · exact character_rest_length_le ..
  split
  · exact number_rest_length_le ..
  split
  · exact length_dropWhile_le ..
  split <;> exact Nat.le_refl _

/-- What a comment leaves behind: the number of its bytes and the characters after its closing mark; nothing
when the mark is missing. -/
def closeComment? : List Char → Option (Nat × List Char)
  | [] => none
  | '*' :: '/' :: cs => some (2, cs)
  | c :: cs => (closeComment? cs).map fun (size, rest) => (c.utf8Size + size, rest)

theorem closeComment?_length_lt {cs rest : List Char} {size : Nat}
    (closed : closeComment? cs = some (size, rest)) : rest.length < cs.length := by
  fun_induction closeComment? cs generalizing size rest with
  | case1 => simp at closed
  | case2 cs =>
    simp only [Option.some.injEq, Prod.mk.injEq] at closed
    obtain ⟨_, rfl⟩ := closed
    simp only [List.length_cons]
    omega
  | case3 c cs _ ih =>
    simp only [Option.map_eq_some_iff, Prod.mk.injEq, Prod.exists] at closed
    obtain ⟨inner, later, found, _, rfl⟩ := closed
    exact Nat.lt_succ_of_lt (ih found)

end Scan

/-- The tokens of a source, the offset of its end, and the faults of its spelling in the order met. -/
structure Lexed where
  tokens : List Token
  stop : Nat
  faults : List (Finding LexicalFault)
  deriving DecidableEq, Repr

namespace Lexed

/-- Where the end of the input is reported. -/
def stopSpan (l : Lexed) : Span := ⟨l.stop, l.stop⟩

/-- Reads the characters behind a byte offset. -/
def ofChars (offset : Nat) (cs : List Char) : Lexed :=
  match cs with
  | [] => ⟨[], offset, []⟩
  | c :: cs =>
    if Text.isBlank c then ofChars (offset + c.utf8Size) cs
    else if c = '/' ∧ cs.head? = some '/' then
      let comment := cs.takeWhile (· != '\n')
      ofChars (offset + 1 + Text.byteLength comment) (cs.dropWhile (· != '\n'))
    else if c = '/' ∧ cs.head? = some '*' then
      match closed : Scan.closeComment? cs.tail with
      | some (size, rest) => ofChars (offset + 2 + size) rest
      | none =>
        let stop := offset + 1 + Text.byteLength cs
        ⟨[], stop, [⟨⟨offset, stop⟩, .unterminatedComment⟩]⟩
    else
      let s := Scan.token offset c cs
      let later := ofChars s.offset s.rest
      let tokens := s.value.toList.map fun kind => ⟨kind, ⟨offset, s.offset⟩⟩
      ⟨tokens ++ later.tokens, later.stop, s.faults ++ later.faults⟩
termination_by cs.length
decreasing_by
  · simp
  · exact Nat.lt_succ_of_le (Scan.length_dropWhile_le ..)
  · have shorter := Scan.closeComment?_length_lt closed
    simp only [List.length_tail, List.length_cons] at shorter ⊢
    omega
  · exact Nat.lt_succ_of_le (Scan.token_rest_length_le ..)

/-- Reads a whole source. -/
def ofSource (source : String) : Lexed := ofChars 0 source.toList

/-! Evaluating the characters of a text takes far longer than reading its tokens. A text that is written out has its
characters at hand. -/

theorem ofSource_eq {source : String} {cs : List Char} (spelled : source.toList = cs) :
    ofSource source = ofChars 0 cs := by
  rw [ofSource, spelled]

theorem toList_append_eq {front back : String} {cs ds : List Char} (spelled : front.toList = cs)
    (spelledBack : back.toList = ds) : (front ++ back).toList = cs ++ ds := by
  rw [String.toList_append, spelled, spelledBack]

end Lexed

end RouteDepot.RouteClass
