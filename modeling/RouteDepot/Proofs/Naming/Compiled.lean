import RouteDepot.Proofs.Cutting
import RouteDepot.Proofs.Lowering.Class
import RouteDepot.Proofs.Naming.Package

/-! # The names of compiled classes

A source is compiled under the qualified name that its own name and its first characters make. Where that succeeds, the
program has this name: its package is the one that was parsed, and what stands behind the last dot names one class of
the unit.
-/

namespace RouteDepot

open RouteClass

namespace RouteClass

/-- No package is missing or wrong when the declared package is the one that is asked for. -/
theorem packageFaults_eq_nil_iff {declared : Option DottedName} {expected : Option String} {unitName : String} :
    packageFaults declared expected unitName = [] ↔ declared.map DottedName.text = expected := by
  unfold packageFaults
  split
  · simp
  · simp
  · next name expected =>
    split
    · next same => simp [same]
    · next different => simpa using fun same => different same.symm

/-- Among items with different keys, no other one has the key of the first that is found. -/
theorem filter_eq_singleton {α : Type} {key : α → String} {items : List α} {item : α} (distinct : (items.map key).Nodup)
    (found : items.find? (key · == key item) = some item) : items.filter (key · == key item) = [item] := by
  obtain ⟨_, front, back, rfl, before⟩ := List.find?_eq_some_iff_append.mp found
  have apart : key item ∉ back.map key := by
    rw [List.map_append, List.map_cons] at distinct
    exact (List.nodup_cons.mp distinct.of_append_right).1
  have noFront : front.filter (key · == key item) = [] :=
    List.filter_eq_nil_iff.mpr fun other member => by simpa using before other member
  have noBack : back.filter (key · == key item) = [] :=
    List.filter_eq_nil_iff.mpr fun other member same =>
      apart (List.mem_map.mpr ⟨other, member, beq_iff_eq.mp same⟩)
  rw [List.filter_append, noFront, List.filter_cons, if_pos (beq_self_eq_true (key item)), noBack, List.nil_append]

/-- The names of a program that a class is lowered to. -/
theorem ClassDeclaration.names_of_lower {c : ClassDeclaration} {package : Option String} {p : Program}
    (lowered : c.lower package = .done p) :
    p.name = c.name.name ∧ p.qualifiedName = package.elim c.name.name (· ++ "." ++ c.name.name) := by
  obtain ⟨_, qualified, _, _, accepted⟩ := lower_eq_done_iff.mp lowered
  exact ⟨accepted.name_eq, qualified⟩

/-- A qualified name is its package and its simple name, with the last dot between them. -/
theorem SourceUnit.splitName_spec (qualifiedName : String) :
    (splitName qualifiedName).1.elim (qualifiedName = (splitName qualifiedName).2)
        (fun package => qualifiedName = package ++ "." ++ (splitName qualifiedName).2) ∧
      '.' ∉ (splitName qualifiedName).2.toList := by
  unfold splitName
  split
  · next package simple found =>
    obtain ⟨shape, last⟩ := Text.cutLast?_eq_some found
    refine ⟨?_, last⟩
    rw [Option.elim_some, ← String.toList_inj, shape]
    simp
  · next absent => exact ⟨rfl, Text.cutLast?_eq_none absent⟩

/-- What the parts of the name of a compiled program are. -/
theorem names_of_compile {qualifiedName source : String} {p : Program} (compiled : compile qualifiedName source = .ok p) :
    ∃ u c, SourceUnit.ofTokens (Lexed.ofSource source).tokens (Lexed.ofSource source).stopSpan = .ok u ∧
      p.qualifiedName = qualifiedName ∧
      u.package.elim (qualifiedName = p.name) (fun n => qualifiedName = n.text ++ "." ++ p.name) ∧
      '.' ∉ p.name.toList ∧
      u.classes.filter (·.name.name == p.name) = [c] ∧ c.lower (u.package.map DottedName.text) = .done p := by
  obtain ⟨u, parsed, lowered⟩ := unit_of_compile_eq_ok compiled
  obtain ⟨declared, programs, classes, _⟩ := SourceUnit.programs_of_lower_eq_ok lowered
  obtain ⟨c, found, done⟩ := SourceUnit.exists_of_lower_eq_ok lowered
  obtain ⟨split, last⟩ := SourceUnit.splitName_spec qualifiedName
  obtain ⟨named, qualified⟩ := ClassDeclaration.names_of_lower done
  have same : c.name.name = (SourceUnit.splitName qualifiedName).2 := by simpa using List.find?_some found
  rw [← same] at split last
  rw [← packageFaults_eq_nil_iff.mp declared] at split done qualified
  rw [named]
  have package : u.package.elim (qualifiedName = c.name.name) fun n => qualifiedName = n.text ++ "." ++ c.name.name := by
    cases declared : u.package <;> rwa [declared] at split
  refine ⟨u, c, parsed, ?_, package, last, ?_, done⟩
  · rw [qualified]
    cases declared : u.package <;> rw [declared] at package <;> exact package.symm
  · rw [← same] at found
    exact filter_eq_singleton (lowerClasses_eq_done_iff.mp classes).1 found

/-- The two readings of a package agree. Where the parser finds a unit, its package is the one that the first
characters declare; and where the source compiles under the name that is determined from them, the program has this
name, with the parsed package in front of the last dot, and behind it the name of exactly one class of the unit. -/
theorem compile_determined (name source : String) :
    (∀ u p, SourceUnit.ofTokens (Lexed.ofSource source).tokens (Lexed.ofSource source).stopSpan = .ok u →
      QualifiedName.package? source = some p → ∃ n, u.package = some n ∧ n.text = p) ∧
    ∀ program, compile (QualifiedName.determine name source ".java") source = .ok program →
      ∃ u c, SourceUnit.ofTokens (Lexed.ofSource source).tokens (Lexed.ofSource source).stopSpan = .ok u ∧
        program.qualifiedName = QualifiedName.determine name source ".java" ∧
        u.package.elim (QualifiedName.determine name source ".java" = program.name)
          (fun n => QualifiedName.determine name source ".java" = n.text ++ "." ++ program.name) ∧
        '.' ∉ program.name.toList ∧
        u.classes.filter (·.name.name == program.name) = [c] ∧
        c.lower (u.package.map DottedName.text) = .done program :=
  ⟨fun _ _ formed declared => SourceUnit.package_of_package? formed declared,
    fun _ compiled => names_of_compile compiled⟩

/-- A package declared with blanks in it, and two classes. -/
def spacedSource : String := " package\n org.acme ; class B \x7b \x7d class Routes \x7b \x7d"

theorem compile_determined_spaced :
    ∃ program u n, compile (QualifiedName.determine "Routes.java" spacedSource ".java") spacedSource = .ok program ∧
      SourceUnit.ofTokens (Lexed.ofSource spacedSource).tokens (Lexed.ofSource spacedSource).stopSpan = .ok u ∧
      QualifiedName.package? spacedSource = some "org.acme" ∧ u.package = some n ∧ n.text = "org.acme" ∧
      program.qualifiedName = "org.acme.Routes" := by
  have name : QualifiedName.determine "Routes.java" spacedSource ".java" = "org.acme.Routes" := by decide +kernel
  have declared : QualifiedName.package? spacedSource = some "org.acme" := by decide +kernel
  obtain ⟨program, compiled⟩ := Except.exists_of_isOk
    (by decide +kernel : (compile "org.acme.Routes" spacedSource).isOk = true)
  rw [← name] at compiled
  obtain ⟨same, agree⟩ := compile_determined "Routes.java" spacedSource
  obtain ⟨u, _, parsed, qualified, _⟩ := agree program compiled
  obtain ⟨n, package, text⟩ := same u _ parsed declared
  exact ⟨program, u, n, compiled, parsed, declared, package, text, qualified.trans name⟩

end RouteClass

end RouteDepot
