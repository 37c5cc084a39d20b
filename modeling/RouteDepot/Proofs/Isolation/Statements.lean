import RouteDepot.Proofs.Isolation.Abreast
import RouteDepot.Proofs.Recovery.Quiet

/-! # A statement and its semicolon

None of the parsers of names, expressions and declarations looks behind a semicolon, also where they look at two or
three tokens ahead. So what a statement comes to, without braces and other semicolons, depends on its own tokens only,
and recovery goes on right behind its semicolon.
-/

namespace RouteDepot.RouteClass

/-! ### Looking ahead -/

/-- A type and a name are told from what else there may be by three tokens at most in front of the semicolon. -/
theorem Parser.startsWithType_semicolon (span : Span) (later later' : List Token) : (front : List Token) →
    startsWithType (front ++ ⟨.mark .semicolon, span⟩ :: later) =
      startsWithType (front ++ ⟨.mark .semicolon, span⟩ :: later')
  | [] => rfl
  | [⟨kind, _⟩] => by cases kind <;> rfl
  | ⟨kind, _⟩ :: ⟨kind', _⟩ :: front => by
    cases kind with
    | ident =>
      cases kind' with
      | mark sign =>
        cases sign with
        | dot => exact startsWithType_semicolon span later later' front
        | bracketOpen =>
          rcases front with _ | ⟨⟨kind'', _⟩, front⟩
          · rfl
          · cases kind'' with
            | mark sign => cases sign <;> rfl
            | _ => rfl
        | _ => rfl
      | _ => rfl
    | _ => rfl

theorem Lanes.Before.startsDeclaration_eq {l : Lanes} {c d : Cursor} (before : l.Before c d) :
    Parser.startsDeclaration d.ahead = Parser.startsDeclaration c.ahead := by
  obtain ⟨front, _, abreast⟩ := before
  rw [abreast.left, abreast.right, through, List.append_assoc, List.append_assoc]
  have same := Parser.startsWithType_semicolon l.semicolon l.left.ahead l.right.ahead front
  unfold Parser.startsDeclaration
  rcases front with _ | ⟨⟨kind, _⟩, front⟩
  · exact same.symm
  · cases kind with
    | keyword word => cases word <;> rfl
    | _ => exact same.symm

namespace Parser

variable {l : Lanes} {c d : Cursor}

theorem furtherPart_alongside (parts : List String) (c d : Cursor) (inside : l.Inside c d) :
    Alongside l l.Inside (furtherPart parts) (furtherPart parts) c d := by
  apply Alongside.get
  obtain ⟨front, _, abreast⟩ := inside.1
  rw [abreast.left, abreast.right, Lanes.through, List.append_assoc, List.append_assoc]
  rcases front with _ | ⟨⟨kind, _⟩, _ | ⟨⟨kind', _⟩, front⟩⟩
  · exact .pure inside
  · cases kind with
    | mark sign => cases sign <;> exact .pure inside
    | _ => exact .pure inside
  · cases kind with
    | mark sign =>
      cases sign with
      | dot =>
        cases kind' with
        | ident =>
          have head : c.next? = some (.mark .dot) := by rw [Cursor.next?, abreast.left]; rfl
          refine .skip inside.1 head (by simp) fun c d inside => ?_
          exact .ident inside.1 fun _ _ _ inside => .pure inside
        | _ => exact .pure inside
      | _ => exact .pure inside
    | _ => exact .pure inside

theorem dottedName_alongside (before : l.Before c d) : Alongside l l.Inside dottedName dottedName c d := by
  rw [dottedName_eq]
  apply Alongside.ident before
  intro first c d inside
  refine (Alongside.iterate furtherPart_alongside inside).bind fun parts c d inside => .get ?_
  rw [inside.2]
  exact .pure inside

section Lists

variable {α : Type} {item : Parser α} (alongside : ∀ c d, l.Before c d → Alongside l l.Inside item item c d)

include alongside

theorem commaSeparated_alongside (before : l.Before c d) :
    Alongside l l.Inside (commaSeparated item) (commaSeparated item) c d := by
  rw [commaSeparated_eq]
  refine .bind_iterate (alongside c d before) fun done c d inside => ?_
  refine .accept inside.1 (by simp) (fun c d inside => ?_) (.pure inside)
  exact (alongside c d inside.1).bind fun _ _ _ inside => .pure inside

theorem enclosed_alongside (before : l.Before c d) : Alongside l l.Inside (enclosed item) (enclosed item) c d := by
  have closes (list : List α) (c d : Cursor) (inside : l.Inside c d) : Alongside l l.Inside
      (do let _ ← expect (.mark .parenClose) "')'"; return list)
      (do let _ ← expect (.mark .parenClose) "')'"; return list) c d :=
    .expect inside.1 (by simp) fun _ _ _ inside => .pure inside
  refine .expect before (by simp) fun opening c d inside => ?_
  apply Alongside.sees inside.1
  · intro _
    exact (Alongside.pure inside).bind closes
  · exact (commaSeparated_alongside alongside inside.1).bind closes

end Lists

section Nested

variable {nested : Parser Expression} (alongside : ∀ c d, l.Before c d → Alongside l l.Inside nested nested c d)

include alongside

theorem arguments_alongside (before : l.Before c d) :
    Alongside l l.Inside (arguments nested) (arguments nested) c d := by
  rw [arguments_eq]
  exact enclosed_alongside alongside before

theorem primary_alongside (before : l.Before c d) : Alongside l l.Inside (primary nested) (primary nested) c d := by
  refine .get (.get ?_)
  rw [before.here_eq, before.next?_eq]
  split
  · apply Alongside.ident before
    intro name c d inside
    apply Alongside.sees inside.1
    · intro _
      refine (arguments_alongside alongside inside.1).bind fun args c d inside => .get ?_
      rw [inside.2]
      exact .pure inside
    · exact .pure inside
  · next head => exact .skip before head (by simp) fun _ _ inside => .pure inside
  · next head =>
    refine .skip before head (by simp) fun c d inside => (dottedName_alongside inside.1).bind fun type c d inside => ?_
    refine (arguments_alongside alongside inside.1).bind fun args c d inside => .get ?_
    rw [inside.2]
    exact .pure inside
  · next head =>
    refine .skip before head (by simp) fun c d inside => (alongside c d inside.1).bind fun inner c d inside => ?_
    exact .expect inside.1 (by simp) fun _ _ _ inside => .pure inside
  · next kind _ _ _ _ head =>
    split
    · next value known =>
      refine .skip before head ?_ fun _ _ inside => .pure inside
      rintro rfl
      cases known
    · exact .failExpected before
  · exact .failExpected before

theorem chain_alongside (before : l.Before c d) : Alongside l l.Inside (chain nested) (chain nested) c d := by
  refine .bind_iterate (primary_alongside alongside before) fun target c d inside => ?_
  refine .accept inside.1 (by simp) (fun c d inside => ?_) (.pure inside)
  refine .link inside fun c d inside => .ident inside.1 fun name c d inside => ?_
  apply Alongside.sees inside.1
  · intro _
    refine (arguments_alongside alongside inside.1).bind fun args c d inside => .get ?_
    rw [inside.2]
    exact .pure inside
  · exact .pure inside

theorem sum_alongside (before : l.Before c d) : Alongside l l.Inside (sum nested) (sum nested) c d := by
  refine .bind_iterate (chain_alongside alongside before) fun left c d inside => ?_
  refine .accept inside.1 (by simp) (fun c d inside => ?_) (.pure inside)
  refine .link inside fun c d inside => ?_
  exact (chain_alongside alongside inside.1).bind fun _ _ _ inside => .pure inside

end Nested

theorem expression_alongside (room : Nat) (c d : Cursor) (before : l.Before c d) :
    Alongside l l.Inside (expression room) (expression room) c d := by
  induction room generalizing c d with
  | zero => exact .fail before
  | succ room ih => exact sum_alongside ih before

theorem typeName_alongside (before : l.Before c d) : Alongside l l.Inside typeName typeName c d := by
  refine (dottedName_alongside before).bind fun name c d inside => ?_
  apply Alongside.sees inside.1
  · intro _
    exact .throws (.fail inside.1)
  · simp only [Bool.false_eq_true, ↓reduceIte]
    refine .accept inside.1 (by simp) (fun c d inside => ?_) (.pure inside)
    exact .expect inside.1 (by simp) fun _ _ _ inside => .pure inside

section Nested

variable {nested : Parser Expression} (alongside : ∀ c d, l.Before c d → Alongside l l.Inside nested nested c d)

include alongside

theorem initialValue_alongside (inside : l.Inside c d) :
    Alongside l l.Inside (initialValue nested) (initialValue nested) c d := by
  refine .accept inside.1 (by simp) (fun c d inside => ?_) (.pure inside)
  exact (alongside c d inside.1).bind fun _ _ _ inside => .pure inside

/-- An expression and the semicolon behind it. -/
theorem throughSemicolon_alongside (f : Expression → Span → Statement) (before : l.Before c d) : Alongside l l.Past
    (do
      let value ← nested
      let semicolon ← expect (.mark .semicolon) "';'"
      return f value semicolon)
    (do
      let value ← nested
      let semicolon ← expect (.mark .semicolon) "';'"
      return f value semicolon) c d :=
  (alongside c d before).bind fun _ _ _ inside => .expect_semicolon inside.1 fun _ _ _ past => .pure past

theorem localDeclaration_alongside (before : l.Before c d) :
    Alongside l l.Past (localDeclaration nested) (localDeclaration nested) c d := by
  have declaration (c d : Cursor) (before : l.Before c d) : Alongside l l.Past
      (do
        let type ← typeName
        let name ← ident
        let value ← initialValue nested
        let _ ← expect (.mark .semicolon) "';'"
        return Statement.declare type name value)
      (do
        let type ← typeName
        let name ← ident
        let value ← initialValue nested
        let _ ← expect (.mark .semicolon) "';'"
        return Statement.declare type name value) c d := by
    refine (typeName_alongside before).bind fun type c d inside => ?_
    refine .ident inside.1 fun name c d inside => (initialValue_alongside alongside inside).bind fun value c d inside => ?_
    exact .expect_semicolon inside.1 fun _ _ _ past => .pure past
  exact .accept before (by simp) (fun c d inside => declaration c d inside.1) (declaration c d before)

/-- A statement ends behind its semicolon, or throws in front of it, whatever links were counted before. -/
theorem statement_alongside {nestedBlock : Parser Block} (before : l.Before { c with links := 0 } { d with links := 0 }) :
    Alongside l l.Past (statement nested nestedBlock) (statement nested nestedBlock) c d := by
  refine .resetLinks before fun c d before => .get ?_
  rw [before.next?_eq]
  split
  · next head => exact .moves rfl rfl (.pure (before.advance_semicolon head))
  · next head => exact absurd head before.next?_ne
  · next head =>
    apply Alongside.get
    rw [before.here_eq]
    refine .skip before head (by simp) fun c d inside => ?_
    refine .accept_semicolon inside.1 (fun c d past => .pure past) (.fail inside.1)
  · next head =>
    apply Alongside.get
    rw [before.here_eq]
    refine .skip before head (by simp) fun c d inside => ?_
    exact throughSemicolon_alongside alongside (fun value semicolon => .throw value ⟨_, semicolon.stop⟩) inside.1
  · apply Alongside.get
    rw [before.startsDeclaration_eq]
    split
    · exact localDeclaration_alongside alongside before
    · exact throughSemicolon_alongside alongside (fun value _ => .expression value) before

end Nested

end Parser

end RouteDepot.RouteClass
