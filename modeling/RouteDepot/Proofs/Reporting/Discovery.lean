import RouteDepot.Proofs.Lexing.Scanning
import Mathlib.Data.List.Pairwise

/-! # The order in which faults of spelling are found

Faults of spelling are found from left to right, with two exceptions: a literal that is not closed is found at its
end, but reported from its beginning, and so it comes after the faults of the escapes in it. In a character literal
these are reported from the beginning as well. In a string literal they are reported where they stand, behind the
beginning of the literal, and nothing else is ever out of order.
-/

namespace RouteDepot.RouteClass

/-- Whether a fault is about an escape. -/
def LexicalFault.isEscape : LexicalFault → Bool
  | illegalEscape | illegalUnicodeEscape => true
  | _ => false

/-- A fault of an escape inside of a string literal that is not closed. -/
structure InUnclosedString (f g : Finding LexicalFault) : Prop where
  escape : f.cause.isEscape
  unclosed : g.cause = .unclosedString
  inside : g.span.start < f.span.start ∧ f.span.stop ≤ g.span.stop

instance (f g : Finding LexicalFault) : Decidable (InUnclosedString f g) :=
  decidable_of_iff (f.cause.isEscape ∧ g.cause = .unclosedString ∧
      g.span.start < f.span.start ∧ f.span.stop ≤ g.span.stop)
    ⟨fun ⟨escape, unclosed, inside⟩ => ⟨escape, unclosed, inside⟩,
      fun ⟨escape, unclosed, inside⟩ => ⟨escape, unclosed, inside⟩⟩

/-- How the places of two faults are related when the second is found after the first. -/
def FoundBefore (f g : Finding LexicalFault) : Prop :=
  f.span.stop ≤ g.span.start ∨ InUnclosedString f g ∨
    f.span.start = g.span.start ∧ g.cause = .unclosedCharacter

/-- The second of two faults is found after the first and does not begin before it. -/
def FoundInOrder (f g : Finding LexicalFault) : Prop := FoundBefore f g ∧ f.span.start ≤ g.span.start

/-- Faults between two offsets, each of at least one byte, in the order of their discovery. -/
structure Discovered (lo hi : Nat) (faults : List (Finding LexicalFault)) : Prop where
  within : ∀ f ∈ faults, lo ≤ f.span.start ∧ f.span.start < f.span.stop ∧ f.span.stop ≤ hi
  order : faults.Pairwise FoundBefore

namespace Discovered

variable {lo mid hi : Nat} {faults more : List (Finding LexicalFault)}

theorem nil : Discovered lo hi [] := ⟨nofun, .nil⟩

theorem singleton {f : Finding LexicalFault} (above : lo ≤ f.span.start) (present : f.span.start < f.span.stop)
    (below : f.span.stop ≤ hi) : Discovered lo hi [f] :=
  ⟨List.forall_mem_singleton.mpr ⟨above, present, below⟩, List.pairwise_singleton ..⟩

theorem mono {lo' hi' : Nat} (discovered : Discovered lo hi faults) (above : lo' ≤ lo) (below : hi ≤ hi') :
    Discovered lo' hi' faults where
  within := by
    intro f member
    obtain ⟨from', present, upTo⟩ := discovered.within f member
    exact ⟨Nat.le_trans above from', present, Nat.le_trans upTo below⟩
  order := discovered.order

/-- What is found behind an offset comes after what is found before it. -/
theorem append (first : Discovered lo mid faults) (later : Discovered mid hi more) (above : lo ≤ mid)
    (below : mid ≤ hi) : Discovered lo hi (faults ++ more) where
  within := List.forall_mem_append.mpr
    ⟨(first.mono (Nat.le_refl _) below).within, (later.mono above (Nat.le_refl _)).within⟩
  order := by
    refine List.pairwise_append.mpr ⟨first.order, later.order, fun f member g memberLater => .inl ?_⟩
    exact Nat.le_trans (first.within f member).2.2 (later.within g memberLater).1

/-- Faults are sorted by their beginnings exactly when no escape is at fault in a string literal that is not closed. -/
theorem sorted_iff (discovered : Discovered lo hi faults) :
    faults.Pairwise (·.span.start ≤ ·.span.start) ↔ ∀ f ∈ faults, ∀ g ∈ faults, ¬ InUnclosedString f g := by
  constructor
  · intro sorted f member g memberLater inside
    -- Of two different faults one is found first, whichever it is.
    have symmetric : Std.Symm fun f g => FoundInOrder f g ∨ FoundInOrder g f := ⟨fun _ _ => Or.symm⟩
    have either : faults.Pairwise fun f g => FoundInOrder f g ∨ FoundInOrder g f :=
      (discovered.order.and sorted).imp Or.inl
    have different : f ≠ g := by
      rintro rfl
      have escape := inside.escape
      rw [inside.unclosed] at escape
      cases escape
    have related := either.forall member memberLater different
    obtain ⟨below, upTo⟩ := inside.inside
    obtain ⟨_, ordered⟩ | ⟨before, _⟩ := related
    · omega
    · obtain apart | other | ⟨_, unclosed⟩ := before
      · have present := (discovered.within f member).2.1
        omega
      · have escape := other.escape
        rw [inside.unclosed] at escape
        cases escape
      · have escape := inside.escape
        rw [unclosed] at escape
        cases escape
  · intro none
    refine discovered.order.imp_of_mem fun {f g} member memberLater before => ?_
    obtain apart | inside | ⟨same, _⟩ := before
    · exact Nat.le_trans (Nat.le_of_lt (discovered.within f member).2.1) apart
    · exact absurd inside (none f member g memberLater)
    · exact Nat.le_of_eq same

end Discovered

/-! ### Literals -/

namespace Scan

/-- An escape is at fault at most once, as a whole. -/
theorem escape_discovered {start offset : Nat} (cs : List Char) (below : start < offset) :
    offset ≤ (escape start offset cs).offset ∧
      Discovered start (escape start offset cs).offset (escape start offset cs).faults ∧
      ∀ f ∈ (escape start offset cs).faults, f.cause.isEscape ∧ f.span = ⟨start, (escape start offset cs).offset⟩ := by
  unfold escape
  split
  · exact ⟨Nat.le_refl _, .singleton (Nat.le_refl _) below (Nat.le_refl _), by simp [LexicalFault.isEscape]⟩
  · extract_lets digits stop
    have forward : offset < stop := by omega
    split
    · exact ⟨Nat.le_of_lt forward, .nil, List.forall_mem_nil _⟩
    · exact ⟨Nat.le_of_lt forward, .singleton (Nat.le_refl _) (Nat.lt_trans below forward) (Nat.le_refl _),
        by simp [LexicalFault.isEscape]⟩
  · split
    · exact ⟨Nat.le_succ _, .nil, List.forall_mem_nil _⟩
    · refine ⟨Nat.le_add_right .., .singleton (Nat.le_refl _) ?_ (Nat.le_refl _), by simp [LexicalFault.isEscape]⟩
      exact Nat.lt_of_lt_of_le below (Nat.le_add_right ..)

/-- What is found in a string literal: faults of escapes, and that it is not closed. -/
theorem string_discovered {start offset : Nat} (cs : List Char) (below : start < offset) :
    offset ≤ (string start offset cs).offset ∧
      Discovered start (string start offset cs).offset (string start offset cs).faults ∧
      ∀ f ∈ (string start offset cs).faults, f.cause.isEscape ∧ offset ≤ f.span.start ∨
        f.cause = .unclosedString ∧ f.span = ⟨start, (string start offset cs).offset⟩ := by
  fun_induction string start offset cs with
  | case1 offset => exact ⟨Nat.le_refl _, .singleton (Nat.le_refl _) below (Nat.le_refl _), by simp⟩
  | case2 offset cs => exact ⟨Nat.le_succ _, .nil, List.forall_mem_nil _⟩
  | case3 offset cs => exact ⟨Nat.le_refl _, .singleton (Nat.le_refl _) below (Nat.le_refl _), by simp⟩
  | case4 offset cs escaped more ih =>
    obtain ⟨forward, first, faulty⟩ : offset + 1 ≤ escaped.offset ∧
        Discovered offset escaped.offset escaped.faults ∧
        ∀ f ∈ escaped.faults, f.cause.isEscape ∧ f.span = ⟨offset, escaped.offset⟩ :=
      escape_discovered cs (Nat.lt_succ_self _)
    obtain ⟨onward, discovered, concerns⟩ := ih (by omega)
    change escaped.offset ≤ more.offset at onward
    dsimp only
    refine ⟨by omega, ⟨?_, ?_⟩, ?_⟩
    · refine List.forall_mem_append.mpr ⟨fun f member => ?_, discovered.within⟩
      obtain ⟨from', present, upTo⟩ := first.within f member
      exact ⟨by omega, present, Nat.le_trans upTo onward⟩
    · refine List.pairwise_append.mpr ⟨first.order, discovered.order, fun f member g memberLater => ?_⟩
      · obtain ⟨escape, span⟩ := faulty f member
        obtain ⟨_, behind⟩ | ⟨unclosed, whole⟩ := concerns g memberLater
        · exact .inl (by rw [span]; exact behind)
        · exact .inr (.inl ⟨escape, unclosed, by rw [span, whole]; exact ⟨below, onward⟩⟩)
    · refine List.forall_mem_append.mpr ⟨fun f member => .inl ?_, fun f member => ?_⟩
      · obtain ⟨escape, span⟩ := faulty f member
        exact ⟨escape, by rw [span]⟩
      · obtain ⟨escape, behind⟩ | unclosed := concerns f member
        · exact .inl ⟨escape, by omega⟩
        · exact .inr unclosed
  | case5 offset c cs _ _ _ more ih =>
    obtain ⟨onward, discovered, concerns⟩ := ih (by omega)
    change offset + c.utf8Size ≤ more.offset at onward
    refine ⟨by dsimp only; omega, discovered, fun f member => ?_⟩
    obtain ⟨escape, behind⟩ | unclosed := concerns f member
    · exact .inl ⟨escape, by omega⟩
    · exact .inr unclosed

theorem closeCharacter_discovered {start offset : Nat} (value : Char) (cs : List Char)
    {faults : List (Finding LexicalFault)} (below : start < offset) (discovered : Discovered start offset faults)
    (begins : ∀ f ∈ faults, f.span.start = start) :
    offset ≤ (closeCharacter start value offset cs faults).offset ∧
      Discovered start (closeCharacter start value offset cs faults).offset
        (closeCharacter start value offset cs faults).faults := by
  unfold closeCharacter
  split
  · exact ⟨Nat.le_succ _, discovered.mono (Nat.le_refl _) (Nat.le_succ _)⟩
  · refine ⟨Nat.le_refl _, ?_, ?_⟩
    · exact List.forall_mem_append.mpr ⟨discovered.within,
        List.forall_mem_singleton.mpr ⟨Nat.le_refl _, below, Nat.le_refl _⟩⟩
    · refine List.pairwise_append.mpr ⟨discovered.order, List.pairwise_singleton .., fun f member g unclosed => ?_⟩
      obtain rfl := List.mem_singleton.mp unclosed
      exact .inr (.inr ⟨begins f member, rfl⟩)

theorem character_discovered {start offset : Nat} (cs : List Char) (below : start < offset) :
    offset ≤ (character start offset cs).offset ∧
      Discovered start (character start offset cs).offset (character start offset cs).faults := by
  unfold character
  split
  · exact ⟨Nat.le_refl _, .singleton (Nat.le_refl _) below (Nat.le_refl _)⟩
  · exact ⟨Nat.le_succ _, .singleton (Nat.le_refl _) (Nat.lt_succ_of_lt below) (Nat.le_refl _)⟩
  · exact ⟨Nat.le_succ _, .singleton (Nat.le_refl _) (Nat.lt_succ_of_lt below) (Nat.le_refl _)⟩
  · rename_i cs
    extract_lets escaped
    obtain ⟨forward, discovered, faulty⟩ : offset + 1 ≤ escaped.offset ∧
        Discovered start escaped.offset escaped.faults ∧
        ∀ f ∈ escaped.faults, f.cause.isEscape ∧ f.span = ⟨start, escaped.offset⟩ :=
      escape_discovered cs (Nat.lt_succ_of_lt below)
    obtain ⟨onward, closed⟩ := closeCharacter_discovered (escaped.value.getD '\x00') escaped.rest
      (by omega : start < escaped.offset) discovered fun f member => by rw [(faulty f member).2]
    exact ⟨by omega, closed⟩
  · rename_i c cs _ _ _
    obtain ⟨onward, closed⟩ := closeCharacter_discovered c cs (by omega : start < offset + c.utf8Size) .nil nofun
    exact ⟨by omega, closed⟩

/-- A digit begins a number, which is at fault at most once, as a whole. -/
theorem number_discovered (start : Nat) (first : Char) (cs : List Char) :
    start < (number start first cs).offset ∧
      Discovered start (number start first cs).offset (number start first cs).faults := by
  simp only [number]
  split
  all_goals repeat' split
  all_goals first
    | exact ⟨by simp only; omega, .nil⟩
    | exact ⟨by simp only; omega, .singleton (Nat.le_refl _) (by simp only; omega) (Nat.le_refl _)⟩

theorem token_discovered (start : Nat) (first : Char) (cs : List Char) :
    start < (token start first cs).offset ∧
      Discovered start (token start first cs).offset (token start first cs).faults := by
  unfold token
  split
  · obtain ⟨forward, discovered, _⟩ := string_discovered cs (Nat.lt_succ_self start)
    exact ⟨forward, discovered⟩
  split
  · obtain ⟨forward, discovered⟩ := character_discovered cs (Nat.lt_succ_self start)
    exact ⟨forward, discovered⟩
  split
  · exact number_discovered start first cs
  split
  · refine ⟨?_, .nil⟩
    have present : 0 < Text.byteLength (first :: cs.takeWhile isWordPart) :=
      Text.byteLength_pos (List.cons_ne_nil _ _)
    dsimp only
    omega
  have size := first.utf8Size_pos
  split
  · exact ⟨by dsimp only; omega, .nil⟩
  · exact ⟨by dsimp only; omega, .singleton (Nat.le_refl _) (by dsimp only; omega) (Nat.le_refl _)⟩

end Scan

/-! ### Sources -/

namespace Lexed

theorem ofChars_discovered (offset : Nat) (cs : List Char) :
    offset ≤ (ofChars offset cs).stop ∧ Discovered offset (ofChars offset cs).stop (ofChars offset cs).faults := by
  fun_induction ofChars offset cs with
  | case1 offset => exact ⟨Nat.le_refl _, .nil⟩
  | case2 offset c cs _ ih | case3 offset c cs _ _ _ ih | case4 offset c cs _ _ _ _ _ _ ih =>
    have forward := ih.1
    exact ⟨by omega, ih.2.mono (by omega) (Nat.le_refl _)⟩
  | case5 offset c cs _ _ _ _ stop =>
    have forward : offset < stop := by omega
    exact ⟨Nat.le_of_lt forward, .singleton (Nat.le_refl _) forward (Nat.le_refl _)⟩
  | case6 offset c cs _ _ _ s later tokens ih =>
    obtain ⟨forward, first⟩ : offset < s.offset ∧ Discovered offset s.offset s.faults :=
      Scan.token_discovered offset c cs
    obtain ⟨onward, rest⟩ : s.offset ≤ later.stop ∧ Discovered s.offset later.stop later.faults := ih
    exact ⟨by dsimp only; omega, first.append rest (Nat.le_of_lt forward) onward⟩

/-- The faults of a source are reported in order, unless an escape is at fault in a string literal that is not
closed. -/
theorem ofSource_sorted_iff (source : String) :
    (ofSource source).faults.Pairwise (·.span.start ≤ ·.span.start) ↔
      ∀ f ∈ (ofSource source).faults, ∀ g ∈ (ofSource source).faults, ¬ InUnclosedString f g :=
  (ofChars_discovered 0 source.toList).2.sorted_iff

end Lexed

end RouteDepot.RouteClass
