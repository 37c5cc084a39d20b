import Mathlib.Data.List.TakeWhile
import RouteDepot.Proofs.Lexing.Characters
import RouteDepot.Proofs.Position.Boundary

/-! # What a scan moves past

A scan leaves a rest of the characters that it was given, and its offset moves on by the bytes of those that it took.
Its faults are about the token that it reads: they lie between the first byte of the token and the last byte taken.
A word token is spelled by the characters taken for it.
-/

namespace RouteDepot.RouteClass

/-- The faults of what stands between tokens; all others are about the spelling of a token. -/
def LexicalFault.isBetweenTokens : LexicalFault → Bool
  | .unterminatedComment | .illegalCharacter _ => true
  | _ => false

/-- The faults of single characters that begin no token. -/
def LexicalFault.isIllegalCharacter : LexicalFault → Bool
  | .illegalCharacter _ => true
  | _ => false

/-- The word that an identifier or a reserved word is. -/
def TokenKind.word? : TokenKind → Option String
  | .ident name => some name
  | .keyword k => some k.word
  | _ => none

namespace Scan

open Text (RestAt IsBoundary byteLength)

variable {α : Type} {whole cs rest text : List Char} {start offset stop : Nat} {faults : List (Finding LexicalFault)}

/-! ### Moves -/

/-- A move past some characters, with faults about the token that begins at `start`. -/
structure Moves (whole : List Char) (start offset : Nat) (cs : List Char) (stop : Nat) (rest : List Char)
    (faults : List (Finding LexicalFault)) : Prop where
  takes : ∃ text, cs = text ++ rest ∧ stop = offset + byteLength text
  concerns : ∀ f ∈ faults, f.cause.isBetweenTokens = false ∧ f.span.Within whole start stop

/-- The move of a scan. -/
abbrev MovesPast (s : Scan α) (whole : List Char) (start offset : Nat) (cs : List Char) : Prop :=
  Moves whole start offset cs s.offset s.rest s.faults

namespace Moves

theorem restAt (moves : Moves whole start offset cs stop rest faults) (stands : RestAt whole offset cs) :
    RestAt whole stop rest := by
  obtain ⟨text, rfl, rfl⟩ := moves.takes
  exact stands.behind

theorem offset_le (moves : Moves whole start offset cs stop rest faults) : offset ≤ stop := by
  obtain ⟨text, _, rfl⟩ := moves.takes
  omega

theorem past (text : List Char) :
    Moves whole start offset (text ++ rest) (offset + byteLength text) rest [] :=
  ⟨⟨text, rfl, rfl⟩, nofun⟩

theorem trans {stop' : Nat} {rest' : List Char} {more : List (Finding LexicalFault)}
    (moves : Moves whole start offset cs stop rest faults) (further : Moves whole start stop rest stop' rest' more) :
    Moves whole start offset cs stop' rest' (faults ++ more) := by
  obtain ⟨text, rfl, rfl⟩ := moves.takes
  obtain ⟨text', rfl, rfl⟩ := further.takes
  refine ⟨⟨text ++ text', (List.append_assoc ..).symm, ?_⟩, ?_⟩
  · rw [Text.byteLength_append, Nat.add_assoc]
  · intro f member
    rcases List.mem_append.mp member with earlier | later
    · obtain ⟨inToken, within⟩ := moves.concerns f earlier
      exact ⟨inToken, within.mono (Nat.le_refl _) further.offset_le⟩
    · exact further.concerns f later

/-- A move that ends with a fault about the bytes up to where it stops. -/
theorem report {begin : Nat} {cause : LexicalFault} (moves : Moves whole start offset cs stop rest faults)
    (stands : RestAt whole offset cs) (begun : IsBoundary whole begin) (above : start ≤ begin) (below : begin ≤ offset)
    (inToken : cause.isBetweenTokens = false) :
    Moves whole start offset cs stop rest (faults ++ [⟨⟨begin, stop⟩, cause⟩]) := by
  refine ⟨moves.takes, fun f member => ?_⟩
  rcases List.mem_append.mp member with earlier | last
  · exact moves.concerns f earlier
  · obtain rfl := List.mem_singleton.mp last
    have forward : begin ≤ stop := Nat.le_trans below moves.offset_le
    exact ⟨inToken, above, forward, Nat.le_refl stop, begun, (moves.restAt stands).isBoundary⟩

/-- A move about a token that begins further in front. -/
theorem mono {start' : Nat} (moves : Moves whole start offset cs stop rest faults) (above : start' ≤ start) :
    Moves whole start' offset cs stop rest faults := by
  refine ⟨moves.takes, fun f member => ?_⟩
  obtain ⟨inToken, within⟩ := moves.concerns f member
  exact ⟨inToken, within.mono above (Nat.le_refl _)⟩

end Moves

/-! ### Escapes -/

theorem utf8Size_of_shortEscape? {c value : Char} (short : shortEscape? c = some value) : c.utf8Size = 1 := by
  unfold shortEscape? at short
  split at short
  iterate 9 rfl
  cases short

theorem utf8Size_of_hexDigit? {c : Char} (digit : (Text.hexDigit? c).isSome) : c.utf8Size = 1 := by
  have low {last : Char} (below : c ≤ last) (single : last.val ≤ 127) : c.utf8Size = 1 :=
    Char.utf8Size_eq_one_iff.mpr (UInt32.le_trans (Char.le_def.mp below) single)
  unfold Text.hexDigit? at digit
  split at digit
  · next range => exact low range.2 (by decide)
  split at digit
  · next range => exact low range.2 (by decide)
  split at digit
  · next range => exact low range.2 (by decide)
  · cases digit

/-- The hexadecimal digits at the front of a text take one byte each. -/
theorem byteLength_take_hexRun (cs : List Char) :
    byteLength (cs.take (hexRun cs).length) = (hexRun cs).length := by
  let isHex (c : Char) : Bool := (Text.hexDigit? c).isSome
  let run := (cs.take 4).takeWhile isHex
  have digits : ∀ c ∈ run, isHex c := fun c => List.mem_takeWhile_imp
  have front : run <+: cs := (List.takeWhile_prefix _).trans (List.take_prefix 4 cs)
  have length : (hexRun cs).length = run.length := List.filterMap_length_eq_length.mpr digits
  rw [length, ← List.prefix_iff_eq_take.mp front]
  exact Text.byteLength_eq_length fun c member => utf8Size_of_hexDigit? (digits c member)

theorem escape_moves (stands : RestAt whole offset cs) (begun : IsBoundary whole start) (below : start ≤ offset) :
    (escape start offset cs).MovesPast whole start offset cs := by
  unfold escape
  split
  · exact (Moves.past []).report stands begun (Nat.le_refl _) below rfl
  · next cs =>
    extract_lets digits stop
    have taken : Moves whole start offset ('u' :: cs) stop (cs.drop digits.length) [] := by
      have split : 'u' :: cs = ('u' :: cs.take digits.length) ++ cs.drop digits.length := by simp
      have size : stop = offset + byteLength ('u' :: cs.take digits.length) := by
        rw [byteLength, byteLength_take_hexRun, ← Nat.add_assoc]
        rfl
      rw [split, size]
      exact .past _
    split
    · exact taken
    · exact taken.report stands begun (Nat.le_refl _) below rfl
  · next c cs _ =>
    split
    · next short =>
      rw [← utf8Size_of_shortEscape? short]
      exact .past [c]
    · exact (Moves.past [c]).report stands begun (Nat.le_refl _) below rfl

/-! ### Literals -/

theorem string_moves (stands : RestAt whole offset cs) (begun : IsBoundary whole start) (below : start ≤ offset) :
    (string start offset cs).MovesPast whole start offset cs := by
  fun_induction string start offset cs with
  | case1 offset => exact (Moves.past []).report stands begun (Nat.le_refl _) below rfl
  | case2 offset cs => exact .past ['"']
  | case3 offset cs => exact (Moves.past []).report stands begun (Nat.le_refl _) below rfl
  | case4 offset cs escaped more ih =>
    have behind : RestAt whole (offset + 1) cs := stands.tail
    have escapes : escaped.MovesPast whole offset (offset + 1) cs :=
      escape_moves behind stands.isBoundary (Nat.le_succ _)
    have further : more.MovesPast whole start escaped.offset escaped.rest :=
      ih (escapes.restAt behind) (by have := escapes.offset_le; omega)
    exact (Moves.past ['\\']).trans ((escapes.mono below).trans further)
  | case5 offset c cs _ _ _ more ih =>
    have further : more.MovesPast whole start (offset + c.utf8Size) cs := ih stands.tail (by omega)
    exact (Moves.past [c]).trans further

theorem closeCharacter_moves {value : Char} (moves : Moves whole start offset cs stop rest faults)
    (stands : RestAt whole offset cs) (begun : IsBoundary whole start) (below : start ≤ offset) :
    (closeCharacter start value stop rest faults).MovesPast whole start offset cs := by
  unfold closeCharacter
  split
  · next rest =>
    have closed := moves.trans (Moves.past ['\''])
    rwa [List.append_nil] at closed
  · exact moves.report stands begun (Nat.le_refl _) below rfl

theorem character_moves (stands : RestAt whole offset cs) (begun : IsBoundary whole start) (below : start ≤ offset) :
    (character start offset cs).MovesPast whole start offset cs := by
  unfold character
  split
  · exact (Moves.past []).report stands begun (Nat.le_refl _) below rfl
  · exact (Moves.past ['\'']).report stands begun (Nat.le_refl _) below rfl
  · exact (Moves.past ['\n']).report stands begun (Nat.le_refl _) below rfl
  · next cs =>
    have escapes : (escape start (offset + 1) cs).MovesPast whole start (offset + 1) cs :=
      escape_moves stands.tail begun (by omega)
    exact closeCharacter_moves ((Moves.past ['\\']).trans escapes) stands begun below
  · next c cs _ _ _ => exact closeCharacter_moves (Moves.past [c]) stands begun below

theorem utf8Size_of_isDigit {c : Char} (digit : c.isDigit) : c.utf8Size = 1 := by
  obtain ⟨_, below⟩ := Char.isDigit_iff_toNat.mp digit
  have single : c.val.toNat ≤ 127 := Nat.le_trans below (by decide)
  exact Char.utf8Size_eq_one_iff.mpr single

theorem utf8Size_of_isNumberPart {c : Char} (part : isNumberPart c) : c.utf8Size = 1 := by
  rcases Bool.or_eq_true_iff.mp part with digit | underscore
  · exact utf8Size_of_isDigit digit
  · rw [beq_iff_eq.mp underscore]
    rfl

/-- A run of characters that take one byte each. -/
theorem Moves.run {p : Char → Bool} (single : ∀ c, p c → c.utf8Size = 1) (offset : Nat) (cs : List Char) :
    Moves whole start offset cs (offset + (cs.takeWhile p).length) (cs.dropWhile p) [] := by
  have size : byteLength (cs.takeWhile p) = (cs.takeWhile p).length :=
    Text.byteLength_eq_length fun c member => single c (List.mem_takeWhile_imp member)
  have moves : Moves whole start offset (cs.takeWhile p ++ cs.dropWhile p) _ (cs.dropWhile p) [] :=
    .past (cs.takeWhile p)
  rwa [List.takeWhile_append_dropWhile, size] at moves

theorem number_moves {first : Char} (stands : RestAt whole start (first :: cs)) (digit : first.isDigit) :
    (number start first cs).MovesPast whole start (start + 1) cs := by
  have behind : RestAt whole (start + 1) cs := utf8Size_of_isDigit digit ▸ stands.tail
  have begun := stands.isBoundary
  unfold number
  extract_lets body offset value finish
  have digits : Moves whole start (start + 1) cs offset (cs.dropWhile isNumberPart) [] :=
    .run (fun c => utf8Size_of_isNumberPart) (start + 1) cs
  have finishes {stop : Nat} {rest : List Char} (moves : Moves whole start (start + 1) cs stop rest []) :
      (finish stop rest).MovesPast whole start (start + 1) cs := by
    unfold finish
    split
    · exact moves
    · exact moves.report behind begun (Nat.le_refl _) (by omega) rfl
  clear_value finish
  split
  · next d more shape =>
    rw [shape] at digits
    split
    · next fraction =>
      have point : Moves whole start offset ('.' :: d :: more) (offset + (1 + (d.utf8Size + 0))) more [] :=
        .past ['.', d]
      rw [utf8Size_of_isDigit fraction] at point
      have moves := (digits.trans point).trans (.run (fun c => utf8Size_of_isDigit) _ more)
      exact moves.report behind begun (Nat.le_refl _) (by omega) rfl
    · exact finishes digits
  · next more shape =>
    rw [shape] at digits
    exact finishes (digits.trans (.past ['l']))
  · next more shape =>
    rw [shape] at digits
    exact finishes (digits.trans (.past ['L']))
  · exact finishes digits

/-! ### Tokens -/

/-- A character that begins no token. -/
def IsForeign (c : Char) : Prop :=
  c ≠ '"' ∧ c ≠ '\'' ∧ c.isDigit = false ∧ isWordStart c = false ∧ Mark.ofSign? c = none

theorem word?_wordKind (spelling : String) : (wordKind spelling).word? = some spelling := by
  unfold wordKind
  split
  · next found => rw [TokenKind.word?, Keyword.ofWord?_eq_some.mp found]
  · rfl

/-- What the reader of a token does with the characters from `first` on: it takes some of them, and finds a token
unless `first` is a foreign character. -/
structure Takes (whole : List Char) (start : Nat) (first : Char) (cs : List Char) (s : Scan (Option TokenKind))
    (text : List Char) : Prop where
  split : cs = text ++ s.rest
  stop : s.offset = start + byteLength (first :: text)
  /-- A token, with faults about its own spelling only. -/
  outcome : (∃ kind, s.value = some kind ∧ (∀ word ∈ kind.word?, word.toList = first :: text) ∧
      ∀ f ∈ s.faults, f.cause.isBetweenTokens = false ∧ f.span.Within whole start s.offset) ∨
    (s.value = none ∧ text = [] ∧ IsForeign first ∧ s.faults = [⟨⟨start, s.offset⟩, .illegalCharacter first⟩])

/-- A literal takes what its reader moved past. -/
theorem Moves.takes_literal {first : Char} {kind : TokenKind} (single : first.utf8Size = 1) (literal : kind.word? = none)
    (moves : Moves whole start (start + 1) cs stop rest faults) :
    ∃ text, Takes whole start first cs ⟨some kind, stop, rest, faults⟩ text := by
  obtain ⟨text, split, stop⟩ := moves.takes
  refine ⟨text, split, ?_, .inl ⟨kind, rfl, ?_, moves.concerns⟩⟩
  · rw [stop, byteLength, single, Nat.add_assoc]
  · rw [literal]
    intro _ absent
    cases absent

theorem token_takes {first : Char} (stands : RestAt whole start (first :: cs)) :
    ∃ text, Takes whole start first cs (token start first cs) text := by
  have begun : IsBoundary whole start := stands.isBoundary
  unfold token
  split
  · next quote =>
    subst quote
    exact (string_moves stands.tail begun (Nat.le_succ _)).takes_literal rfl rfl
  next noString =>
  split
  · next quote =>
    subst quote
    exact (character_moves stands.tail begun (Nat.le_succ _)).takes_literal rfl rfl
  next noCharacter =>
  split
  · next digit => exact (number_moves stands digit).takes_literal (utf8Size_of_isDigit digit) rfl
  next noDigit =>
  split
  · refine ⟨cs.takeWhile isWordPart, List.takeWhile_append_dropWhile.symm, rfl, .inl ⟨_, rfl, ?_, nofun⟩⟩
    intro word spelled
    rw [word?_wordKind, Option.mem_some_iff] at spelled
    rw [← spelled, String.toList_ofList]
  next noWord =>
  extract_lets stop
  split
  · exact ⟨[], rfl, rfl, .inl ⟨_, rfl, nofun, nofun⟩⟩
  · next noMark =>
    have foreign : IsForeign first :=
      ⟨noString, noCharacter, Bool.eq_false_of_not_eq_true noDigit, Bool.eq_false_of_not_eq_true noWord, noMark⟩
    exact ⟨[], rfl, rfl, .inr ⟨rfl, rfl, foreign, rfl⟩⟩

end Scan

end RouteDepot.RouteClass
