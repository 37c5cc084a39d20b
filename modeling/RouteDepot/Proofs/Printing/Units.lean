import RouteDepot.Proofs.Printing.Declarations

/-! # Reading whole sources

Classes, imports and the package name, and from them the round trip: the tokens that spell a well formed source unit
within the limits are parsed, whatever their spans, and the tree that they form is the printed one up to spans.
-/

namespace RouteDepot.RouteClass

namespace Parser

/-! ### Classes -/

theorem member_reads {className : String} {m : Member} (wellFormed : m.WellFormed className) (within : m.WithinLimits) :
    Reads false (member className) m.print 0 Anything (·.erase = m.erase) := by
  cases m with
  | field f => exact field_reads wellFormed within
  | constructor c => exact constructor_reads wellFormed within
  | method m => exact method_reads wellFormed within

theorem member_print_ne_nil (m : Member) : m.print ≠ [] := by
  cases m <;>
    simp [Member.print, FieldDeclaration.print, ConstructorDeclaration.print, MethodDeclaration.print]

theorem member_print_eq_cons {className : String} {m : Member} (wellFormed : m.WellFormed className) :
    ∃ kind later, m.print = kind :: later ∧ kind.beginsDeclaration := by
  cases m with
  | field f =>
    obtain ⟨first, later, printed⟩ := f.type.print_eq_cons wellFormed.2.1
    simp only [Member.print, FieldDeclaration.print, List.append_assoc, printed, List.cons_append]
    exact f.modifiers.print_append_eq_cons _ rfl
  | constructor c =>
    simp only [Member.print, ConstructorDeclaration.print, List.append_assoc, List.cons_append]
    exact c.modifiers.print_append_eq_cons _ rfl
  | method m =>
    simp only [Member.print, MethodDeclaration.print, List.append_assoc, List.cons_append]
    cases result : m.result with
    | none => exact m.modifiers.print_append_eq_cons _ rfl
    | some type =>
      obtain ⟨first, later, printed⟩ := type.print_eq_cons (wellFormed.2.1 type result)
      simp only [Option.elim_some, printed, List.cons_append]
      exact m.modifiers.print_append_eq_cons _ rfl

theorem members_reads {className : String} {members : List Member} (wellFormed : ∀ m ∈ members, m.WellFormed className)
    (within : ∀ m ∈ members, m.WithinLimits) :
    Reads false (iterate (bodyMember className) []) (members.flatMap Member.print) 0 EndsBody
      (·.map Member.erase = members.map Member.erase) := by
  refine (Passes.collect Anything (fun _ => 0) (fun m read => read.erase = m.erase) ?_ ?_ member_print_ne_nil
    (fun _ _ => trivial) (fun _ _ => trivial) (by simp)).mono (fun _ => id) ?_
  · intro m member done
    have readsMember := member_reads (wellFormed m member) (within m member)
    obtain ⟨kind, later, printed, begins⟩ := member_print_eq_cons (wellFormed m member)
    rw [printed] at readsMember ⊢
    refine bodyEnds_false (TokenKind.ne_of_beginsDeclaration begins rfl) (.accept_false ?_ readsMember.recover_append)
    intro rest _ same
    exact TokenKind.ne_of_beginsDeclaration begins rfl (Option.some.inj same)
  · intro done
    exact bodyEnds_true (.pure rfl)
  · rintro _ ⟨read, rfl, same⟩
    exact map_eq_of_forall₂ same

/-- A class may extend another one. -/
theorem extends_passes {α : Type} {parent : Option DottedName} {next : Option DottedName → Parser α}
    {printed : List TokenKind} {meant : α → Prop} (wellFormed : ∀ name ∈ parent, name.WellFormed)
    (ends : ∀ rest, NotDotted (printed ++ rest) ∧ (printed ++ rest).head? ≠ some (.keyword .extendsKw))
    (later : ∀ read, read.map DottedName.erase = parent.map DottedName.erase →
      Reads false (next read) printed 0 Anything meant) :
    Reads false (do if ← accept (.keyword .extendsKw) then (do next (← some <$> dottedName)) else next none)
      ((parent.elim [] fun name => .keyword .extendsKw :: name.print) ++ printed) 0 Anything meant := by
  cases parent with
  | none => exact .accept_false (fun rest _ => (ends rest).2) (later none rfl)
  | some name =>
    apply Passes.accept_true
    simp only [↓reduceIte, bind_map_left]
    refine (dottedName_reads (wellFormed name rfl)).bind ?_ (fun rest _ => (ends rest).1)
    intro read same
    apply later
    simp only [Option.map_some, same]

theorem class_reads {c : ClassDeclaration} (wellFormed : c.WellFormed) (within : ∀ m ∈ c.members, m.WithinLimits) :
    Reads false classDeclaration c.print 0 Anything (·.erase = c.erase) := by
  obtain ⟨modified, extended, implemented, wellFormed⟩ := wellFormed
  simp only [ClassDeclaration.print, List.append_assoc, List.cons_append]
  apply Passes.get
  intro start _ _ _
  refine (modifiers_reads modified).bind ?_ (fun _ _ => .inl rfl)
  intro modifiers sameModifiers
  apply Passes.next
  intro c head
  rw [head]
  apply Passes.skip
  apply Passes.ident
  intro name sameName
  refine extends_passes extended ?_ ?_
  · intro rest
    rw [printNames]
    split
    · exact ⟨.of_avoids (by simp [Avoids, enbrace]), by simp [enbrace]⟩
    · exact ⟨.of_avoids (by simp [Avoids]), by simp⟩
  intro parent sameParent
  refine (namesAfter_reads .implementsKw implemented).bind ?_ (fun _ _ => .inl rfl)
  intro interfaces sameInterfaces
  apply Passes.expect
  intro opening
  rw [sameName]
  refine (members_reads wellFormed within).bind ?_ (fun _ _ => rfl)
  intro members sameMembers
  apply Passes.expect
  intro closing
  apply Passes.pure
  simp only [ClassDeclaration.erase, Ident.erase, sameModifiers, sameName, sameParent, sameInterfaces, sameMembers]

theorem class_print_eq_cons (c : ClassDeclaration) :
    ∃ kind later, c.print = kind :: later ∧ kind.beginsDeclaration := by
  simp only [ClassDeclaration.print, List.append_assoc, List.cons_append]
  exact c.modifiers.print_append_eq_cons _ rfl

/-! ### Imports -/

theorem map_printImportPart {parts : List String} (named : "*" ∉ parts) :
    parts.map (fun part => [printImportPart part]) = parts.map fun part => [.ident part] := by
  refine List.map_congr_left fun part member => ?_
  rw [printImportPart, if_neg]
  rintro rfl
  exact named member

/-- An import of one thing is printed as its name, and one of many as a name, a dot and a star. -/
theorem printImport_eq {n : DottedName} (wellFormed : n.IsImport) :
    ∃ name : DottedName, name.WellFormed ∧
      (n.parts = name.parts ∧ printImport n = .keyword .importKw :: (name.print ++ [.mark .semicolon]) ∨
        n.parts = name.parts ++ ["*"] ∧
          printImport n = .keyword .importKw :: (name.print ++ [.mark .dot, .mark .star, .mark .semicolon])) := by
  rcases n with ⟨parts, span⟩
  rcases List.eq_nil_or_concat' parts with rfl | ⟨front, last, rfl⟩
  · exact absurd rfl wellFormed.1
  obtain ⟨present, named, notStar⟩ := wellFormed
  simp only [List.dropLast_concat] at named notStar
  by_cases star : last = "*"
  · have wellFormed : front ≠ [] := by
      rintro rfl
      exact notStar (by rw [star]; rfl)
    refine ⟨⟨front, span⟩, wellFormed, .inr ⟨by rw [star], ?_⟩⟩
    rw [printImport, List.map_append, map_printImportPart named, List.map_singleton,
      printJoined_append (by simpa using wellFormed), printImportPart, if_pos star]
    simp [DottedName.print]
  · refine ⟨⟨front ++ [last], span⟩, present, .inl ⟨rfl, ?_⟩⟩
    rw [printImport, map_printImportPart (by simpa [eq_comm] using And.intro named star)]
    rfl

theorem importName_reads {n : DottedName} (wellFormed : n.IsImport) :
    Reads false importName (printImport n) 0 Anything (·.erase = n.erase) := by
  obtain ⟨name, named, ⟨parts, printed⟩ | ⟨parts, printed⟩⟩ := printImport_eq wellFormed
  all_goals
    obtain ⟨first, later, begins⟩ := name.print_eq_cons named
    rw [printed]
    apply Passes.expect
    intro importing
    refine .accept_false (fun _ _ => by simp [begins]) ?_
  · refine (dottedName_reads named).bind ?_ (fun _ _ => .of_avoids (by simp [Avoids]))
    intro read same
    refine .accept_false (fun _ _ => by simp) ?_
    apply Passes.expect
    intro semicolon
    apply Passes.pure
    rw [same, DottedName.erase, DottedName.erase, parts]
  · refine (dottedName_reads named).bind ?_ (fun _ _ _ _ => by simp)
    intro read same
    apply Passes.accept_true
    apply Passes.expect
    intro star
    simp only [pure_bind]
    apply Passes.expect
    intro semicolon
    apply Passes.pure
    simp only [DottedName.erase, parts, DottedName.mk.injEq] at same ⊢
    simp only [same.1, and_self]

theorem imports_reads {imports : List DottedName} (wellFormed : ∀ name ∈ imports, name.IsImport) :
    Reads false (iterate moreImports []) (imports.flatMap printImport) 0
      (fun rest => rest.head? ≠ some (.keyword .importKw))
      (·.map DottedName.erase = imports.map DottedName.erase) := by
  refine (Passes.collect Anything (fun _ => 0) (fun n read => read.erase = n.erase) ?_ ?_
    (fun _ => List.cons_ne_nil _ _) (fun _ _ => trivial) (fun _ _ => trivial) (by simp)).mono (fun _ => id) ?_
  · intro name member done
    apply Passes.sees_true
    exact (importName_reads (wellFormed name member)).recover_append
  · intro done
    exact .sees_false (fun _ ends => ends) (.pure rfl)
  · rintro _ ⟨read, rfl, same⟩
    exact map_eq_of_forall₂ same

/-! ### Units -/

theorem packageName_reads {package : Option DottedName} (wellFormed : ∀ name ∈ package, name.WellFormed) :
    Reads false packageName (package.elim [] fun name => .keyword .packageKw :: name.print ++ [.mark .semicolon]) 0
      (fun rest => rest.head? ≠ some (.keyword .packageKw))
      (·.map DottedName.erase = package.map DottedName.erase) := by
  cases package with
  | none => exact .accept_false (fun _ ends => ends) (.pure rfl)
  | some name =>
    apply Passes.accept_true
    refine (dottedName_reads (wellFormed name rfl)).bind ?_ (fun _ _ => .of_avoids (by simp [Avoids]))
    intro read same
    apply Passes.expect
    intro semicolon
    apply Passes.pure
    simp only [Option.map_some, same]

theorem classes_reads {classes : List ClassDeclaration} (wellFormed : ∀ c ∈ classes, c.WellFormed)
    (within : ∀ c ∈ classes, ∀ m ∈ c.members, m.WithinLimits) :
    Reads false (iterate moreClasses []) (classes.flatMap ClassDeclaration.print) 0 (· = [])
      (·.map ClassDeclaration.erase = classes.map ClassDeclaration.erase) := by
  refine (Passes.collect Anything (fun _ => 0) (fun c read => read.erase = c.erase) ?_ ?_
    (fun c => ?_) (fun _ _ => trivial) (fun _ _ => trivial) (by simp)).mono (fun _ => id) ?_
  · intro c member done
    have readsClass := class_reads (wellFormed c member) (within c member)
    obtain ⟨kind, later, printed, begins⟩ := class_print_eq_cons c
    rw [printed] at readsClass ⊢
    apply Passes.get
    intro cursor rest facing _
    obtain ⟨_, _, ahead, _⟩ := tokens_eq_cons facing
    simp only [ahead, List.isEmpty_cons, Bool.false_eq_true, ↓reduceIte]
    refine .accept_false ?_ readsClass.recover_append
    intro rest _ same
    exact TokenKind.ne_of_beginsDeclaration begins rfl (Option.some.inj same)
  · intro done
    apply Passes.get
    intro c rest facing ended
    have none : c.ahead = [] := List.map_eq_nil_iff.mp (facing.trans ended)
    simp only [none, List.isEmpty_nil, ↓reduceIte]
    exact .pure rfl
  · obtain ⟨kind, later, printed, _⟩ := class_print_eq_cons c
    rw [printed]
    exact List.cons_ne_nil _ _
  · rintro _ ⟨read, rfl, same⟩
    exact map_eq_of_forall₂ same

/-- Classes begin with neither of the words that stand before them. -/
theorem classes_head (classes : List ClassDeclaration) {word : Keyword}
    (other : (TokenKind.keyword word).beginsDeclaration = false) :
    (classes.flatMap ClassDeclaration.print).head? ≠ some (.keyword word) := by
  cases classes with
  | nil => simp
  | cons c later =>
    obtain ⟨kind, others, printed, begins⟩ := class_print_eq_cons c
    rw [List.flatMap_cons, printed, List.cons_append, List.head?_cons]
    intro same
    exact TokenKind.ne_of_beginsDeclaration begins other (Option.some.inj same)

theorem sourceUnit_reads {u : SourceUnit} (wellFormed : u.WellFormed) (within : u.WithinLimits) :
    Reads false sourceUnit u.print 0 (· = []) (·.erase = u.erase) := by
  obtain ⟨packaged, imported, wellFormed⟩ := wellFormed
  rw [SourceUnit.print, List.append_assoc]
  refine (packageName_reads packaged).recover.bind ?_ ?_
  · rintro _ ⟨package, rfl, samePackage⟩
    refine (imports_reads imported).bind ?_ ?_
    · intro imports sameImports
      apply (classes_reads wellFormed within).bind_done
      intro classes sameClasses
      apply Passes.pure
      simp only [SourceUnit.erase, Option.join_some, samePackage, sameImports, sameClasses]
    · rintro rest rfl
      rw [List.append_nil]
      exact classes_head u.classes rfl
  · rintro rest rfl
    rw [List.append_nil]
    cases u.imports with
    | nil => exact classes_head u.classes rfl
    | cons name later => simp [printImport]

end Parser

/-- Tokens that the parser of source units reads form a unit that it means by them. -/
theorem SourceUnit.exists_of_reads {kinds : List TokenKind} {means : SourceUnit → Prop}
    (reads : Parser.Reads false Parser.sourceUnit kinds 0 (· = []) means) {tokens : List Token}
    (spelled : tokens.map (·.kind) = kinds) (stop : Span) :
    ∃ parsed, SourceUnit.ofTokens tokens stop = .ok parsed ∧ means parsed := by
  have facing : Cursor.kinds { ahead := tokens, stop } = kinds ++ [] := by
    rw [List.append_nil]
    exact spelled
  obtain ⟨parsed, after, ran, behind, meant⟩ := reads _ [] facing rfl nofun
  refine ⟨parsed, ?_, meant⟩
  simp only [SourceUnit.ofTokens, ran, behind.faults, List.isEmpty_nil, ↓reduceIte]

/-- The tokens that spell a well formed source unit within the limits form that unit, up to spans. -/
theorem SourceUnit.ofTokens_print {u : SourceUnit} (wellFormed : u.WellFormed) (within : u.WithinLimits)
    {tokens : List Token} (spelled : tokens.map (·.kind) = u.print) (stop : Span) :
    ∃ parsed, SourceUnit.ofTokens tokens stop = .ok parsed ∧ parsed.erase = u.erase :=
  SourceUnit.exists_of_reads (Parser.sourceUnit_reads wellFormed within) spelled stop

/-- A source unit with a sum as a receiver, a sum as the right part of a sum, and an import of many things. -/
def greetings : SourceUnit where
  package := some ⟨["app", "routes"], ⟨0, 0⟩⟩
  imports := [⟨["java", "util", "*"], ⟨0, 0⟩⟩]
  classes := [{
    modifiers := { isPublic := true, annotations := [⟨["Component"], ⟨0, 0⟩⟩] }
    name := ⟨"Greetings", ⟨0, 0⟩⟩
    parent := some ⟨["RouteBuilder"], ⟨0, 0⟩⟩
    interfaces := []
    members := [
      .field {
        modifiers := {}
        type := ⟨⟨["String"], ⟨0, 0⟩⟩, false⟩
        name := ⟨"text", ⟨0, 0⟩⟩
        value := some (.concat (.literal (.str "a") ⟨0, 0⟩)
          (.concat (.literal (.int 1) ⟨0, 0⟩) (.literal (.int 2) ⟨0, 0⟩))) },
      .constructor {
        modifiers := {}
        name := ⟨"Greetings", ⟨0, 0⟩⟩
        parameters := []
        body := ⟨[], ⟨0, 0⟩⟩ },
      .method {
        modifiers := {}
        result := none
        name := ⟨"configure", ⟨0, 0⟩⟩
        parameters := []
        throws := [⟨["Exception"], ⟨0, 0⟩⟩]
        body := some ⟨[.expression (.callOn (.concat (.name ⟨"text", ⟨0, 0⟩⟩) (.literal .null ⟨0, 0⟩))
          ⟨"trim", ⟨0, 0⟩⟩ [] ⟨0, 0⟩)], ⟨0, 0⟩⟩ }]
    span := ⟨0, 0⟩ }]

theorem greetings_ofTokens_print :
    ∃ parsed, SourceUnit.ofTokens (greetings.print.map fun kind => ⟨kind, ⟨3, 4⟩⟩) ⟨5, 5⟩ = .ok parsed ∧
      parsed.erase = greetings.erase := by
  refine SourceUnit.ofTokens_print ?_ ?_ ?_ ⟨5, 5⟩
  · simp [greetings, SourceUnit.WellFormed, ClassDeclaration.WellFormed, Member.WellFormed, Modifiers.WellFormed,
      DottedName.WellFormed, DottedName.IsImport, TypeName.WellFormed, Block.WellFormed, Statement.AllWellFormed,
      Statement.WellFormed, Expression.WellFormed, Expression.AllWellFormed]
  · simp [greetings, SourceUnit.WithinLimits, Member.WithinLimits, Block.WithinLimits, Block.depth, Block.mostLinks,
      Statement.depthAll, Statement.depth, Statement.mostLinksAll, Statement.mostLinks, Expression.depth,
      Expression.nesting, Expression.depthAll, Expression.links, Expression.linksAll, Expression.isSum,
      Parser.nestingLimit, Parser.linkLimit]
  · rw [List.map_map]
    exact List.map_id _

end RouteDepot.RouteClass
