import RouteDepot.Proofs.Lexing.Literals

/-! # Reading what is written

Reading moves past a gap without a trace and past the text of a token with that token, as long as what follows cannot
be part of it. Tokens that are written with gaps between them are therefore read back, and nothing else is read.
-/

namespace RouteDepot.RouteClass

open Scan

/-! ### Tokens -/

theorem token_reads_word {first : Char} {later rest : List Char} (starts : isWordStart first)
    (continues : ∀ c ∈ later, isWordPart c) (ends : EndsToken rest) (start : Nat) :
    ∃ stop, token start first (later ++ rest) =
      ⟨some (wordKind (String.ofList (first :: later))), stop, rest, []⟩ := by
  have notQuote : first ≠ '"' ∧ first ≠ '\'' := by
    constructor <;> rintro rfl <;> revert starts <;> decide +kernel
  have notDigit : first.isDigit = false := isDigit_eq_false_of_isWordStart starts
  have stops : ∀ c ∈ rest.head?, isWordPart c = false := fun c begins => isWordPart_eq_false (ends c begins)
  obtain ⟨taken, left⟩ := takeWhile_append_of_stops continues stops
  simp [token, notQuote, notDigit, starts, taken, left]

/-- A token is read back from its text, and what follows is left alone. -/
theorem token_reads {kind : TokenKind} {text rest : List Char} (spells : kind.Spells text) (ends : EndsToken rest) :
    ∃ first later, text = first :: later ∧ BeginsToken first ∧
      ∀ start, ∃ stop, token start first (later ++ rest) = ⟨some kind, stop, rest, []⟩ := by
  cases spells with
  | @ident first later starts continues free =>
    have unreserved : Keyword.ofWord? (String.ofList (first :: later)) = none := by
      rw [Option.eq_none_iff_forall_ne_some]
      exact fun k found => free k (Keyword.ofWord?_eq_some.mp found)
    refine ⟨first, later, rfl, beginsToken_of_isWordStart starts, fun start => ?_⟩
    obtain ⟨stop, read⟩ := token_reads_word starts continues ends start
    exact ⟨stop, by rw [read, wordKind, unreserved]⟩
  | keyword k =>
    obtain ⟨first, later, spelled, starts, continues⟩ := word_spelled k
    refine ⟨first, later, spelled, beginsToken_of_isWordStart starts, fun start => ?_⟩
    obtain ⟨stop, read⟩ := token_reads_word starts continues ends start
    have reserved : Keyword.ofWord? (String.ofList (first :: later)) = some k := by
      rw [← spelled, String.ofList_toList, Keyword.ofWord?_eq_some]
    exact ⟨stop, by rw [read, wordKind, reserved]⟩
  | mark m =>
    obtain ⟨begins, notQuote, notTick, notDigit, notWord⟩ := sign_begins m
    refine ⟨m.sign, [], rfl, begins, fun start => ⟨start + m.sign.utf8Size, ?_⟩⟩
    have found : Mark.ofSign? m.sign = some m := Mark.ofSign?_eq_some.mpr rfl
    simp [token, notQuote, notTick, notDigit, notWord, found]
  | @str value parts spells =>
    refine ⟨'"', parts.flatten ++ ['"'], rfl, by decide, fun start => ?_⟩
    obtain ⟨stop, read⟩ := string_reads spells start (start + 1) rest
    exact ⟨stop, by simp [token, read]⟩
  | @char value text spells =>
    refine ⟨'\'', text ++ ['\''], rfl, by decide, fun start => ?_⟩
    obtain ⟨stop, read⟩ := character_reads spells start (start + 1) rest
    exact ⟨stop, by simp [token, read]⟩
  | @int n digits suffix small spells marked =>
    obtain ⟨first, body, rfl, digit⟩ := eq_cons_of_spells spells
    refine ⟨first, body ++ suffix, rfl, beginsToken_of_isDigit digit, fun start => ?_⟩
    obtain ⟨stop, read⟩ := number_reads spells small marked ends start
    have notQuote : first ≠ '"' ∧ first ≠ '\'' := by
      constructor <;> rintro rfl <;> revert digit <;> decide
    rw [List.append_assoc] at read
    exact ⟨stop, by simp [token, notQuote, digit, read]⟩

/-! ### Gaps -/

/-- A comment ends with its first closing mark. -/
theorem closeComment?_append {text later : List Char} (unclosed : ¬ ['*', '/'] <:+: text) :
    ∃ size, closeComment? (text ++ '*' :: '/' :: later) = some (size, later) := by
  induction text with
  | nil => exact ⟨2, rfl⟩
  | cons c text ih =>
    obtain ⟨size, closed⟩ := ih fun inside => unclosed (inside.trans (List.suffix_cons c text).isInfix)
    refine ⟨c.utf8Size + size, ?_⟩
    rw [List.cons_append, closeComment?]
    · rw [closed]
      rfl
    · rintro more rfl begins
      cases text with
      | nil => cases begins
      | cons d text =>
        obtain rfl := (List.cons.inj begins).1
        exact unclosed ⟨[], text, rfl⟩

theorem Gap.endsToken {gap : List Char} (separated : Gap gap) (present : gap ≠ []) (rest : List Char) :
    EndsToken (gap ++ rest) := by
  intro c begins
  cases separated with
  | nil => exact absurd rfl present
  | blank white _ =>
    obtain rfl := Option.some.inj begins
    exact .inl white
  | lineComment | comment => exact .inr (Option.some.inj begins).symm

namespace Lexed

theorem ofChars_blank {c : Char} (white : Text.isBlank c) (offset : Nat) (rest : List Char) :
    ofChars offset (c :: rest) = ofChars (offset + c.utf8Size) rest := by
  rw [ofChars, if_pos white]

theorem ofChars_lineComment {text : List Char} (line : '\n' ∉ text) (offset : Nat) (rest : List Char) :
    ∃ behind, ofChars offset ('/' :: '/' :: text ++ '\n' :: rest) = ofChars behind rest := by
  have inside : ∀ c ∈ '/' :: text, (c != '\n') = true := by
    rintro c member
    rw [bne_iff_ne]
    rintro rfl
    simp [line] at member
  have skipped : ('/' :: text ++ '\n' :: rest).dropWhile (· != '\n') = '\n' :: rest :=
    (takeWhile_append_of_stops inside (by simp)).2
  have dark : ¬ Text.isBlank '/' = true := by decide
  have lineEnd : Text.isBlank '\n' := by decide
  rw [List.cons_append, ofChars, if_neg dark, if_pos ⟨rfl, rfl⟩, skipped]
  exact ⟨_, ofChars_blank lineEnd _ rest⟩

theorem ofChars_comment {text : List Char} (unclosed : ¬ ['*', '/'] <:+: text) (offset : Nat) (rest : List Char) :
    ∃ behind, ofChars offset ('/' :: '*' :: text ++ '*' :: '/' :: rest) = ofChars behind rest := by
  obtain ⟨size, closed⟩ := @closeComment?_append text rest unclosed
  have dark : ¬ Text.isBlank '/' = true := by decide
  have noLine : ¬ ('/' = '/' ∧ ('*' :: text ++ '*' :: '/' :: rest).head? = some '/') := by simp
  refine ⟨offset + 2 + size, ?_⟩
  rw [List.cons_append, ofChars, if_neg dark, if_neg noLine, if_pos ⟨rfl, rfl⟩]
  split
  · next closed' =>
    obtain ⟨rfl, rfl⟩ := Prod.mk.inj (Option.some.inj (closed.symm.trans closed'))
    rfl
  · next missing => exact absurd (closed.symm.trans missing) (by simp)

/-- Reading moves past a gap. -/
theorem ofChars_gap {gap : List Char} (separated : Gap gap) (offset : Nat) (rest : List Char) :
    ∃ behind, ofChars offset (gap ++ rest) = ofChars behind rest := by
  induction separated generalizing offset with
  | nil => exact ⟨offset, rfl⟩
  | @blank c later white _ ih =>
    obtain ⟨behind, read⟩ := ih (offset + c.utf8Size)
    exact ⟨behind, (ofChars_blank white offset (later ++ rest)).trans read⟩
  | @lineComment text later line _ ih =>
    obtain ⟨middle, skipped⟩ := ofChars_lineComment line offset (later ++ rest)
    obtain ⟨behind, read⟩ := ih middle
    rw [List.append_assoc]
    exact ⟨behind, skipped.trans read⟩
  | @comment text later unclosed _ ih =>
    obtain ⟨middle, skipped⟩ := ofChars_comment unclosed offset (later ++ rest)
    obtain ⟨behind, read⟩ := ih middle
    rw [List.append_assoc]
    exact ⟨behind, skipped.trans read⟩

/-- Reading moves past the text of a token with that token. -/
theorem ofChars_token {kind : TokenKind} {text rest : List Char} (spells : kind.Spells text) (ends : EndsToken rest)
    (offset : Nat) :
    ∃ stop, ofChars offset (text ++ rest) =
      ⟨⟨kind, ⟨offset, stop⟩⟩ :: (ofChars stop rest).tokens, (ofChars stop rest).stop, (ofChars stop rest).faults⟩ := by
  obtain ⟨first, later, rfl, ⟨dark, notSlash⟩, reads⟩ := token_reads spells ends
  obtain ⟨stop, read⟩ := reads offset
  refine ⟨stop, ?_⟩
  rw [List.cons_append, ofChars]
  simp [dark, notSlash, read]

theorem ofChars_written {kinds : List TokenKind} {text : List Char} (written : Written kinds text) (offset : Nat) :
    (ofChars offset text).tokens.map (·.kind) = kinds ∧ (ofChars offset text).faults = [] := by
  induction written generalizing offset with
  | nil => simp [ofChars]
  | @cons kind later spelled gap text spells separated apart more ih =>
    have ends : EndsToken (gap ++ text) := by
      by_cases present : gap = []
      · -- Nothing is written behind the last token.
        obtain rfl := apart.resolve_right (fun some => some present)
        cases more
        simp [present, EndsToken]
      · exact separated.endsToken present text
    obtain ⟨stop, read⟩ := ofChars_token spells ends offset
    obtain ⟨behind, skipped⟩ := ofChars_gap separated stop text
    rw [List.append_assoc, read, skipped]
    obtain ⟨same, clean⟩ := ih behind
    exact ⟨by rw [List.map_cons, same], clean⟩

/-- A source that writes tokens with gaps between them, and perhaps gaps at its ends, is read into these tokens without
a fault. -/
theorem ofSource_written {kinds : List TokenKind} {lead text : List Char} (leading : Gap lead)
    (written : Written kinds text) :
    (ofSource (String.ofList (lead ++ text))).tokens.map (·.kind) = kinds ∧
      (ofSource (String.ofList (lead ++ text))).faults = [] := by
  obtain ⟨behind, skipped⟩ := ofChars_gap leading 0 text
  rw [ofSource, String.toList_ofList, skipped]
  exact ofChars_written written behind

/-- A number with a zero, an underscore and a suffix, a text with escapes, and a name, with comments between them. -/
theorem ofSource_written_literals :
    let lead := ['/', '*', '*', '*', '/']
    let text := ['0', '_', '4', '2', 'L'] ++ ['\t'] ++
      ('"' :: [['\\', 'u', '0', '0', '6', 'A'], ['\\', 'n'], ['\'']].flatten ++ ['"'] ++ ['/', '/', '\n'] ++
        (['x'] ++ [] ++ []))
    Gap lead ∧ Written [.int 42, .str "j\n'", .ident "x"] text ∧
    (ofSource (String.ofList (lead ++ text))).tokens.map (·.kind) = [.int 42, .str "j\n'", .ident "x"] ∧
    (ofSource (String.ofList (lead ++ text))).faults = [] := by
  intro lead text
  have leading : Gap lead := @Gap.comment ['*'] [] (by decide) .nil
  have number : TokenKind.Spells (.int 42) (['0', '_', '4', '2'] ++ ['L']) :=
    .int (by decide) ⟨by decide, 1, by decide⟩ (by decide)
  have escape : SpellsEscape 'j' ['u', '0', '0', '6', 'A'] :=
    @SpellsEscape.unicode 'j' _ _ _ _ 0 0 6 10 (by decide) (by decide) (by decide) (by decide) (by decide)
  have string : TokenKind.Spells (.str "j\n'")
      ('"' :: [['\\', 'u', '0', '0', '6', 'A'], ['\\', 'n'], ['\'']].flatten ++ ['"']) := by
    apply TokenKind.Spells.str
    have letters : "j\n'".toList = ['j', '\n', '\''] := by decide
    rw [letters]
    exact .cons (.escaped escape) (.cons (.escaped (.short (by decide)))
      (.cons (.raw (by decide) (by decide) (by decide)) .nil))
  have word : TokenKind.Spells (.ident "x") ['x'] :=
    @TokenKind.Spells.ident 'x' [] (by decide) (by simp) (fun k => by cases k <;> decide)
  have tab : Gap ['\t'] := .blank (by decide) .nil
  have comment : Gap ['/', '/', '\n'] := @Gap.lineComment [] [] (by simp) .nil
  have written : Written [.int 42, .str "j\n'", .ident "x"] text :=
    .cons number tab (by simp) (.cons string comment (by simp) (.cons word .nil (by simp) .nil))
  exact ⟨leading, written, ofSource_written leading written⟩

end Lexed

end RouteDepot.RouteClass
