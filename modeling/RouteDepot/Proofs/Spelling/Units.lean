import RouteDepot.Proofs.Results
import RouteDepot.Proofs.Spelling.Declarations

/-! # Units that were read

A unit that was read from tokens is spelled by all of them: parsing recovers from faults, but then it does not yield a
unit, and without a fault it stops at the end of the tokens only.
-/

namespace RouteDepot.RouteClass

/-! ### Semicolons -/

namespace AmongSemicolons

variable {α : Type} {spelledBy : α → List TokenKind → Prop} {items more : List α} {tokens later : List TokenKind}

theorem append (first : AmongSemicolons spelledBy items tokens) (second : AmongSemicolons spelledBy more later) :
    AmongSemicolons spelledBy (items ++ more) (tokens ++ later) := by
  induction first with
  | nil => exact second
  | semicolon _ ih => exact .semicolon ih
  | item spelled _ ih =>
    rw [List.append_assoc]
    exact .item spelled ih

theorem then_item {a : α} (first : AmongSemicolons spelledBy items tokens) (spelled : spelledBy a later) :
    AmongSemicolons spelledBy (items ++ [a]) (tokens ++ later) := by
  rw [← List.append_nil later]
  exact first.append (.item spelled .nil)

theorem then_semicolon (first : AmongSemicolons spelledBy items tokens) :
    AmongSemicolons spelledBy items (tokens ++ [.mark .semicolon]) := by
  rw [← List.append_nil items]
  exact first.append (.semicolon .nil)

end AmongSemicolons

theorem ClassDeclaration.SpelledBy.ne_nil {d : ClassDeclaration} {tokens : List TokenKind}
    (spelled : d.SpelledBy tokens) : tokens ≠ [] := by
  obtain ⟨words, members, _, _, rfl⟩ := spelled
  simp

namespace Parser

variable {c : Cursor}

/-! ### Classes -/

theorem bodyMember_accounts (className : String) (members : List Member) (done : List TokenKind) (c : Cursor) :
    Accounts (bodyMember className members) c fun r more =>
      r.elim (more = []) fun next =>
        AmongSemicolons Member.SpelledBy members done → AmongSemicolons Member.SpelledBy next (done ++ more) := by
  apply Accounts.bodyEnds
  · exact .pure rfl
  apply Accounts.accept
  · intro after
    apply Accounts.pure
    exact AmongSemicolons.then_semicolon
  · apply (Accounts.recover_append faults_afterMember (member_accounts className)).mono
    rintro _ tokens ⟨m, rfl, spelledMember⟩ spelled
    exact spelled.then_item spelledMember

/-- A class may extend another one. -/
theorem Accounts.extends {α : Type} {next : Option DottedName → Parser α} {means : α → List TokenKind → Prop}
    (later : ∀ parent after, Accounts (next parent) after fun a more =>
      means a ((parent.elim [] fun name => .keyword .extendsKw :: name.print) ++ more)) :
    Accounts (do
      if ← Parser.accept (.keyword .extendsKw) then (do next (← some <$> dottedName)) else next none) c means := by
  apply Accounts.accept
  · intro after
    simp only [↓reduceIte, bind_map_left]
    apply dottedName_accounts.bind
    intro name tokens after
    apply (later (some name) after).mono
    rintro a more holds ⟨_, rfl⟩
    exact holds
  · exact later none c

theorem classDeclaration_accounts : Accounts classDeclaration c ClassDeclaration.SpelledBy := by
  apply Accounts.get
  apply modifiers_accounts.bind
  intro modifiers words c
  apply Accounts.get
  split
  · next head =>
    apply Accounts.skip head
    intro after
    apply Accounts.ident
    intro name after
    apply Accounts.extends
    intro parent after
    apply (namesAfter_accounts .implementsKw).bind
    intro interfaces tokens after
    apply Accounts.expect
    intro opening after
    apply (Accounts.iterate .nil (bodyMember_accounts name.name)).bind
    intro members tokens after
    apply Accounts.expect
    intro closing after
    apply Accounts.pure
    rintro spelled ⟨_, rfl⟩ modified
    exact ⟨words, tokens, modified, spelled, by simp [enbrace]⟩
  · exact .fail
  · exact .fail
  · exact .failExpected

/-- The loop over the classes stops at the end of the tokens only. -/
theorem moreClasses_accounts (classes : List ClassDeclaration) (done : List TokenKind) (c : Cursor) :
    Accounts (moreClasses classes) c fun r more =>
      r.elim (more = [] ∧ c.kinds = []) fun next => more ≠ [] ∧
        (AmongSemicolons ClassDeclaration.SpelledBy classes done →
          AmongSemicolons ClassDeclaration.SpelledBy next (done ++ more)) := by
  apply Accounts.get
  split
  · next ended =>
    apply Accounts.pure
    rw [List.isEmpty_iff] at ended
    exact ⟨rfl, by rw [Cursor.kinds, ended]; rfl⟩
  apply Accounts.accept
  · intro after
    apply Accounts.pure
    exact ⟨List.cons_ne_nil _ _, AmongSemicolons.then_semicolon⟩
  · apply (Accounts.recover_append faults_afterDeclaration classDeclaration_accounts).mono
    rintro _ tokens ⟨d, rfl, spelledClass⟩
    exact ⟨spelledClass.ne_nil, fun spelled => spelled.then_item spelledClass⟩

/-! ### Imports -/

/-- A star may stand at the end of an import. -/
theorem importName_accounts : Accounts importName c ImportSpelledBy := by
  apply Accounts.expect
  intro importing after
  apply Accounts.optionally
  intro _ static after optional
  apply dottedName_accounts.bind
  intro name tokens after
  apply Accounts.accept
  · intro after
    simp only [↓reduceIte]
    apply Accounts.expect
    intro star after
    apply Accounts.expect
    intro semicolon after
    apply Accounts.pure
    rintro ⟨named, rfl⟩
    exact ⟨static, _, optional, .many name _ named, by simp⟩
  · simp only [Bool.false_eq_true, ↓reduceIte]
    apply Accounts.expect
    intro semicolon after
    apply Accounts.pure
    rintro ⟨_, rfl⟩
    exact ⟨static, _, optional, .one name, by simp⟩

theorem moreImports_accounts (done : List DottedName) (c : Cursor) :
    Accounts (moreImports done) c fun r more =>
      r = none ∧ more = [] ∨ ∃ name, r = some (done ++ [name]) ∧ ImportSpelledBy name more := by
  apply Accounts.sees
  · intro _
    exact (Accounts.recover_append faults_afterDeclaration importName_accounts).mono fun _ _ => .inr
  · exact .pure (.inl ⟨rfl, rfl⟩)

/-! ### Units -/

theorem packageName_accounts :
    Accounts packageName c fun package tokens =>
      tokens = package.elim [] fun name => .keyword .packageKw :: name.print ++ [.mark .semicolon] := by
  apply Accounts.accept
  · intro after
    simp only [↓reduceIte]
    apply dottedName_accounts.bind
    intro name tokens after
    apply Accounts.expect
    intro semicolon after
    apply Accounts.pure
    rintro ⟨_, rfl⟩
    rfl
  · exact .pure rfl

theorem sourceUnit_accounts :
    Accounts sourceUnit c fun u tokens => tokens = c.kinds ∧ u.SpelledBy tokens := by
  apply (packageName_accounts.recover faults_afterDeclaration).bind_facing
  intro package packaged beforeImports
  apply (Accounts.collect moreImports_accounts).bind_facing
  intro imports imported beforeClasses
  apply (Accounts.iterate_all .nil moreClasses_accounts).bind
  intro classes tokens after
  apply Accounts.pure
  rintro ⟨rfl, spelled⟩ facingClasses ⟨items, parts, rfl, related, rfl⟩ facing ⟨name, rfl, rfl⟩
  refine ⟨by rw [facing, facingClasses, List.append_nil], parts, beforeClasses.kinds, related, spelled, ?_⟩
  simp

end Parser

/-- A source unit that tokens form is spelled by them: each token has its place in the unit, in order, but for those
without meaning. -/
theorem SourceUnit.spelledBy_of_ofTokens {tokens : List Token} {stop : Span} {u : SourceUnit}
    (formed : SourceUnit.ofTokens tokens stop = .ok u) : u.SpelledBy (tokens.map (·.kind)) := by
  unfold SourceUnit.ofTokens at formed
  split at formed
  · next parsed after ran =>
    split at formed
    · next clean =>
      obtain rfl := Except.ok.inj formed
      obtain ⟨_, read, _, rfl, spelled⟩ := Parser.sourceUnit_accounts _ _ ran (List.isEmpty_iff.mp clean)
      exact spelled
    · cases formed
  · cases formed

/-- The tokens of a class with `import static`, arguments of an at-sign name, a repeated modifier, needless
parentheses, stray semicolons, and a constructor that throws. -/
def adorned : List TokenKind :=
  [.keyword .importKw, .keyword .staticKw, .ident "util", .mark .dot, .mark .star, .mark .semicolon, .mark .semicolon,
    .keyword .finalKw, .mark .atSign, .ident "Named", .mark .parenOpen, .mark .parenOpen, .int 1, .mark .parenClose,
    .mark .parenClose, .keyword .publicKw, .keyword .finalKw, .keyword .classKw, .ident "A", .mark .braceOpen,
    .mark .semicolon, .ident "A", .mark .parenOpen, .keyword .finalKw, .ident "B", .ident "b", .mark .parenClose,
    .keyword .throwsKw, .ident "E", .mark .braceOpen, .keyword .finalKw, .ident "B", .ident "c", .mark .equal,
    .mark .parenOpen, .ident "b", .mark .parenClose, .mark .semicolon, .mark .braceClose, .mark .semicolon,
    .mark .braceClose, .mark .semicolon]

theorem adorned_spelled :
    ∃ u, SourceUnit.ofTokens (adorned.map fun kind => ⟨kind, ⟨0, 0⟩⟩) ⟨1, 1⟩ = .ok u ∧
      u.SpelledBy adorned := by
  obtain ⟨u, formed⟩ := Except.exists_of_isOk
    (by decide +kernel : (SourceUnit.ofTokens (adorned.map fun kind => ⟨kind, ⟨0, 0⟩⟩) ⟨1, 1⟩).isOk = true)
  exact ⟨u, formed, SourceUnit.spelledBy_of_ofTokens formed⟩

end RouteDepot.RouteClass
