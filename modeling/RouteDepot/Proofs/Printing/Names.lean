import RouteDepot.Proofs.Printing.Limits
import RouteDepot.Proofs.Printing.Reading

/-! # Reading names and lists

Dotted names, types, and lists with commas between their items. A dotted name goes on as long as a dot and an
identifier follow; a list goes on as long as a comma follows.
-/

namespace RouteDepot.RouteClass

/-- Tokens that do not go on with a dotted name. -/
def NotDotted (rest : List TokenKind) : Prop := ∀ name later, rest ≠ .mark .dot :: .ident name :: later

theorem NotDotted.of_avoids {rest : List TokenKind} (avoids : Avoids [.dot] rest) : NotDotted rest := by
  rintro name later rfl
  exact avoids .dot (by simp) rfl

theorem map_eq_of_forall₂ {α β γ : Type} {f : α → γ} {g : β → γ} {items : List α} {read : List β}
    (same : List.Forall₂ (fun a b => g b = f a) items read) : read.map g = items.map f := by
  induction same with
  | nil => rfl
  | cons first _ ih => rw [List.map_cons, List.map_cons, first, ih]

theorem DottedName.print_eq_cons {n : DottedName} (wellFormed : n.WellFormed) :
    ∃ first later, n.print = .ident first :: later := by
  obtain ⟨first, later, parts⟩ := List.exists_cons_of_ne_nil wellFormed
  exact ⟨first, _, by rw [print, parts, List.map_cons, printJoined, List.singleton_append]⟩

theorem TypeName.print_eq_cons {t : TypeName} (wellFormed : t.WellFormed) :
    ∃ first later, t.print = .ident first :: later := by
  obtain ⟨first, later, printed⟩ := t.name.print_eq_cons wellFormed
  exact ⟨first, _, by rw [print, printed, List.cons_append]⟩

namespace Parser

/-! ### Loops over parts and items -/

/-- One more part of a dotted name, if a dot and an identifier follow. -/
def furtherPart (parts : List String) : Parser (Option (List String)) := do
  match (← get).ahead with
  | ⟨.mark .dot, _⟩ :: ⟨.ident _, _⟩ :: _ =>
    skip
    return some (parts ++ [(← ident).name])
  | _ => return none

/-- One more item, if a comma follows. -/
def furtherItem {α : Type} (item : Parser α) (done : List α) : Parser (Option (List α)) := do
  if ← accept (.mark .comma) then return some (done ++ [← item]) else return none

theorem dottedName_eq : dottedName = (do
    let first ← ident
    let parts ← iterate furtherPart [first.name]
    return ⟨parts, ⟨first.span.start, (← get).last.stop⟩⟩) := rfl

theorem commaSeparated_eq {α : Type} (item : Parser α) :
    commaSeparated item = (do let first ← item; iterate (furtherItem item) [first]) := rfl

/-! ### What is read -/

variable {counted : Bool}

theorem dottedName_reads {n : DottedName} (wellFormed : n.WellFormed) :
    Reads counted dottedName n.print 0 NotDotted (·.erase = n.erase) := by
  rcases parts : n.parts with _ | ⟨first, later⟩
  · exact absurd parts wellFormed
  have printed : n.print = .ident first :: later.flatMap fun part => [.mark .dot, .ident part] := by
    simp [DottedName.print, parts, printJoined, List.flatMap_map]
  rw [printed, dottedName]
  apply Passes.ident
  intro i named
  refine (Passes.collect Anything (fun _ => 0) (fun part read => read = part) ?_ ?_ (fun _ => List.cons_ne_nil _ _)
    (fun _ _ => trivial) (fun _ _ => trivial) (by simp)).bind_done ?_
  · intro part _ done
    apply Passes.get
    intro c rest facing _
    obtain ⟨_, tail, ahead, facingLater⟩ := tokens_eq_cons facing
    obtain ⟨_, _, rfl, _⟩ := tokens_eq_cons facingLater
    simp only [ahead]
    apply Passes.skip
    apply Passes.ident
    intro i named
    exact .pure ⟨_, rfl, named⟩
  · intro done
    apply Passes.get
    intro c rest facing ends
    split
    · next ahead =>
      rw [Cursor.kinds, ahead] at facing
      exact absurd facing.symm (ends _ _)
    · exact .pure rfl
  · rintro all ⟨read, rfl, same⟩
    apply Passes.get
    intro c rest _ _
    apply Passes.pure
    have same : read = later := by simpa using map_eq_of_forall₂ (f := id) (g := id) same
    simp [DottedName.erase, parts, named, same]

/-- A type may be followed by anything but brackets, type arguments and a dot. -/
theorem typeName_reads {t : TypeName} (wellFormed : t.WellFormed) :
    Reads counted typeName t.print 0 (Avoids [.dot, .less, .bracketOpen]) (·.erase = t.erase) := by
  rw [typeName, TypeName.print]
  refine .bind (dottedName_reads wellFormed) ?_ ?_
  · intro name same
    refine .sees_false ?_ ?_
    · intro rest ends
      split
      · simp
      · exact ends .less (by simp)
    simp only [Bool.false_eq_true, ↓reduceIte]
    split
    · next array =>
      apply Passes.accept_true
      simp only [↓reduceIte]
      apply Passes.expect
      intro closing
      apply Passes.pure
      simp only [TypeName.erase, same, array]
    · next single =>
      refine .accept_false (fun _ ends => ends .bracketOpen (by simp)) (.pure ?_)
      simp only [TypeName.erase, same, eq_false_of_ne_true single]
  · intro rest ends
    apply NotDotted.of_avoids
    split
    · simp [Avoids]
    · exact ends.of_subset (by simp)

/-! ### Lists -/

section Lists

variable {α ι : Type} {item : Parser α} {items : List ι} {print : ι → List TokenKind} {links : Nat}
  (between : List TokenKind → Prop) (cost : ι → Nat) (same : ι → α → Prop)

theorem commaSeparated_reads (present : items ≠ [])
    (reads : ∀ x ∈ items, Reads counted item (print x) (cost x) between (same x))
    (enables : ∀ rest, between (.mark .comma :: rest)) (total : (items.map cost).sum = links) :
    Reads counted (commaSeparated item) (printJoined .comma (items.map print)) links
      (fun rest => between rest ∧ Avoids [.comma] rest) (List.Forall₂ same items) := by
  obtain ⟨first, later, rfl⟩ := List.exists_cons_of_ne_nil present
  obtain ⟨reads, readsLater⟩ := List.forall_mem_cons.mp reads
  rw [List.map_cons, printJoined, List.flatMap_map, ← total, List.map_cons, List.sum_cons, commaSeparated]
  refine reads.bind_links ?_ ?_
  · intro a holds
    refine (Passes.collect between cost same ?_ ?_ (fun _ => List.cons_ne_nil _ _) (fun _ _ => enables _)
      (fun _ ends => ends.1) rfl).mono (fun _ => id) ?_
    · intro x member done
      apply Passes.accept_true
      simp only [↓reduceIte]
      apply (readsLater x member).bind_done
      intro a holds
      exact .pure ⟨a, rfl, holds⟩
    · intro done
      exact .accept_false (fun _ ends => ends.2 .comma List.mem_cons_self) (.pure rfl)
    · rintro all ⟨read, rfl, others⟩
      exact .cons holds others
  · intro rest ends
    cases later with
    | nil => exact ends.1
    | cons => exact enables _

/-- Items between parentheses. -/
def enclosed (item : Parser α) : Parser (List α) := do
  let _ ← expect (.mark .parenOpen) "'('"
  let list ← if ← sees (.mark .parenClose) then pure [] else commaSeparated item
  let _ ← expect (.mark .parenClose) "')'"
  return list

theorem arguments_eq (nested : Parser Expression) : arguments nested = enclosed nested := rfl

theorem parameters_eq : parameters = enclosed parameter := rfl

theorem enclosed_reads
    (reads : ∀ x ∈ items, Reads counted item (print x) (cost x) between (same x))
    (enables : ∀ sign ∈ [Mark.comma, .parenClose], ∀ rest, between (.mark sign :: rest))
    (begins : ∀ x ∈ items, ∀ rest, Avoids [.parenClose] (print x ++ rest)) (total : (items.map cost).sum = links) :
    Reads counted (enclosed item) (printArguments (items.map print)) links Anything
      (List.Forall₂ same items) := by
  rw [enclosed, printArguments, parenthesize, List.cons_append, ← total]
  apply Passes.expect
  intro opening
  cases items with
  | nil =>
    apply Passes.sees_true
    simp only [↓reduceIte, pure_bind]
    apply Passes.expect
    intro closing
    exact .pure .nil
  | cons first later =>
    have list := commaSeparated_reads between cost same (List.cons_ne_nil _ _) reads (enables .comma (by simp)) rfl
    refine .sees_false ?_ ?_
    · intro rest _
      rw [List.map_cons, printJoined, List.append_assoc, List.append_assoc]
      exact begins first List.mem_cons_self _ .parenClose List.mem_cons_self
    simp only [Bool.false_eq_true, ↓reduceIte]
    refine list.bind_rest ?_ ?_
    · intro read holds
      apply Passes.expect
      intro closing
      exact .pure holds
    · intro rest _
      exact ⟨enables .parenClose (by simp) _, by simp [Avoids]⟩

end Lists

end Parser

end RouteDepot.RouteClass
