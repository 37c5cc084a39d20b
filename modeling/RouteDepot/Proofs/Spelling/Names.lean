import RouteDepot.Proofs.Printing.Names
import RouteDepot.Proofs.Spelling.Accounts
import RouteDepot.Proofs.Spelling.Tree

/-! # Names and lists that were read

A dotted name, a type or a list with commas between its items accounts for every token that was read.
-/

namespace RouteDepot.RouteClass.Parser

variable {c : Cursor}

theorem next?_of_ahead {token : Token} {later : List Token} (ahead : c.ahead = token :: later) :
    c.next? = some token.kind := by
  rw [Cursor.next?, ahead]
  rfl

theorem dottedName_accounts : Accounts dottedName c fun n tokens => n.WellFormed ∧ tokens = n.print := by
  apply Accounts.ident
  intro first after
  -- The parts so far spell the first one and what the loop has moved past.
  let inside (parts : List String) (more : List TokenKind) : Prop :=
    parts ≠ [] ∧ .ident first.name :: more = printJoined .dot (parts.map fun part => [.ident part])
  refine (Accounts.iterate ?start ?step : Accounts _ after inside).bind ?_
  case start => exact ⟨List.cons_ne_nil _ _, rfl⟩
  case step =>
    intro parts done c
    apply Accounts.get
    split
    · next ahead =>
      apply Accounts.skip (next?_of_ahead ahead)
      intro after
      apply Accounts.ident
      intro part after
      apply Accounts.pure
      rintro ⟨present, spelled⟩
      refine ⟨by simp, ?_⟩
      rw [List.map_append, List.map_singleton, printJoined_append (by simpa using present), ← spelled]
      rfl
    · exact .pure rfl
  · intro parts more after
    apply Accounts.get
    apply Accounts.pure
    rintro ⟨present, spelled⟩
    rw [List.append_nil]
    exact ⟨present, spelled⟩

theorem typeName_accounts : Accounts typeName c fun t tokens => tokens = t.print := by
  apply dottedName_accounts.bind
  intro name tokens after
  apply Accounts.sees
  · intro _
    exact .fail
  apply Accounts.accept
  · intro after
    apply Accounts.expect
    intro closing after
    apply Accounts.pure
    rintro ⟨_, rfl⟩
    rfl
  · apply Accounts.pure
    rintro ⟨_, rfl⟩
    rfl

/-- A word without meaning. -/
theorem Accounts.optionally {α : Type} {word : Keyword} {next : Bool → Parser α} {means : α → List TokenKind → Prop}
    (later : ∀ r tokens after, Optionally word tokens →
      Accounts (next r) after fun a more => means a (tokens ++ more)) :
    Accounts (Parser.accept (.keyword word) >>= next) c means := by
  apply Accounts.accept
  · intro after
    exact later true _ after (.inr rfl)
  · exact later false [] c (.inl rfl)

/-! ### Lists -/

section Lists

variable {α : Type} {item : Parser α} {spelledBy : α → List TokenKind → Prop}

theorem commaSeparated_accounts (accounts : ∀ c, Accounts item c spelledBy) :
    Accounts (commaSeparated item) c fun all tokens =>
      all ≠ [] ∧ ∃ parts, List.Forall₂ spelledBy all parts ∧ tokens = printJoined .comma parts := by
  refine .bind_iterate ?starts ?goesOn
  case starts =>
    apply (accounts c).mono
    intro first tokens spelled
    exact ⟨List.cons_ne_nil _ _, [tokens], .cons spelled .nil, (List.append_nil tokens).symm⟩
  case goesOn =>
    intro all done c
    apply Accounts.accept
    · intro after
      simp only [↓reduceIte]
      apply (accounts after).bind
      intro next more after
      apply Accounts.pure
      rintro spelled ⟨present, parts, related, rfl⟩
      have presentParts : parts ≠ [] := by
        rintro rfl
        cases related
        exact present rfl
      refine ⟨by simp, parts ++ [more], List.rel_append related (.cons spelled .nil), ?_⟩
      rw [printJoined_append presentParts, List.append_nil]
    · simp only [Bool.false_eq_true, ↓reduceIte]
      exact .pure rfl

theorem enclosed_accounts (accounts : ∀ c, Accounts item c spelledBy) :
    Accounts (enclosed item) c fun all tokens =>
      ∃ parts, List.Forall₂ spelledBy all parts ∧ tokens = printArguments parts := by
  apply Accounts.expect
  intro opening after
  apply Accounts.sees
  · intro _
    simp only [↓reduceIte, pure_bind]
    apply Accounts.expect
    intro closing after
    apply Accounts.pure
    exact ⟨[], .nil, rfl⟩
  · simp only [Bool.false_eq_true, ↓reduceIte]
    apply (commaSeparated_accounts accounts).bind
    intro all tokens after
    apply Accounts.expect
    intro closing after
    apply Accounts.pure
    rintro ⟨_, parts, related, rfl⟩
    exact ⟨parts, related, rfl⟩

end Lists

theorem namesAfter_accounts (word : Keyword) :
    Accounts (namesAfter word) c fun names tokens =>
      (∀ name ∈ names, name.WellFormed) ∧ tokens = printNames word names := by
  apply Accounts.accept
  · intro after
    simp only [↓reduceIte]
    apply (commaSeparated_accounts fun _ => dottedName_accounts).mono
    rintro names _ ⟨present, parts, related, rfl⟩
    obtain ⟨named, printed⟩ := (List.forall₂_and_left names parts).mp related
    have printed : parts = names.map DottedName.print := by
      simpa using map_eq_of_forall₂ (f := DottedName.print) (g := id) printed
    refine ⟨named, ?_⟩
    rw [printNames, printed, List.isEmpty_eq_false_iff.mpr present]
    rfl
  · simp only [Bool.false_eq_true, ↓reduceIte]
    exact .pure ⟨nofun, rfl⟩

end RouteDepot.RouteClass.Parser
