import RouteDepot.Proofs.Layout.Classes
import RouteDepot.Proofs.Naming.Compiled
import RouteDepot.Proofs.Reordering.Classes

/-! # Declaration order matters only among fields

A unit is lowered to a program when it has the package that is asked for, when its classes have different names and are
all lowered without faults, and when one of them has the name that is asked for. None of this depends on the order of
the classes, and what a class is lowered to depends on the order of its fields alone. So methods may call methods, and
use fields, that are declared below them.
-/

namespace RouteDepot.RouteClass

namespace SourceUnit

/-- A unit is lowered to a program when one of its classes is, and when there are no faults in the others. -/
theorem lower_eq_ok_iff {u : SourceUnit} {qualifiedName : String} {p : Program} :
    u.lower qualifiedName = .ok p ↔
      u.package.map DottedName.text = (splitName qualifiedName).1 ∧ (u.classes.map (·.name.name)).Nodup ∧
        (∀ c ∈ u.classes, ∃ program, c.lower (splitName qualifiedName).1 = .done program) ∧
        ∃ c ∈ u.classes, c.name.name = (splitName qualifiedName).2 ∧ c.lower (splitName qualifiedName).1 = .done p := by
  constructor
  · intro success
    obtain ⟨declared, programs, lowered, _⟩ := programs_of_lower_eq_ok success
    obtain ⟨c, found, done⟩ := exists_of_lower_eq_ok success
    obtain ⟨distinct, _, each⟩ := lowerClasses_eq_done_iff.mp lowered
    refine ⟨packageFaults_eq_nil_iff.mp declared, distinct, fun other member => ?_, c, List.mem_of_find?_eq_some found,
      by simpa using List.find?_some found, done⟩
    obtain ⟨entry, _, _, done⟩ := each.exists_right member
    exact ⟨entry.2, done⟩
  · rintro ⟨declared, distinct, each, c, member, named, done⟩
    have partner : ∀ c ∈ u.classes, ∃ entry : String × Program,
        c.name.name = entry.1 ∧ c.lower (splitName qualifiedName).1 = .done entry.2 := fun c member =>
      (each c member).elim fun program done => ⟨(c.name.name, program), rfl, done⟩
    obtain ⟨programs, related⟩ := List.exists_forall₂ partner
    have lowered := lowerClasses_eq_done_iff.mpr ⟨distinct, fun _ _ => List.not_mem_nil, related⟩
    have names : u.classes.map (·.name.name) = programs.map (·.1) := by
      rw [← List.forall₂_eq_eq_eq, List.forall₂_map_left_iff, List.forall₂_map_right_iff]
      exact related.imp fun _ _ => And.left
    obtain ⟨⟨name, program⟩, listed, same, done'⟩ := related.exists_right member
    obtain rfl : name = (splitName qualifiedName).2 := same.symm.trans named
    obtain rfl := Lowered.done_inj.mp (done.symm.trans done')
    exact lower_eq_ok_of_programs (packageFaults_eq_nil_iff.mpr declared) lowered
      ((lookup_eq_some_iff_mem (names ▸ distinct)).mpr listed)

/-- A unit with the classes of another one in any order, each with its members reordered. -/
structure Reordered (u u' : SourceUnit) : Prop where
  package : u'.package = u.package
  classes : ∃ classes, List.Forall₂ ClassDeclaration.Reordered u.classes classes ∧ classes.Perm u'.classes

/-- The classes of a unit backwards, and the members of each, apart from its fields. -/
def backwards (u : SourceUnit) : SourceUnit :=
  { u with classes := (u.classes.map ClassDeclaration.backwards).reverse }

theorem reordered_backwards (u : SourceUnit) : u.Reordered u.backwards where
  package := rfl
  classes := ⟨u.classes.map ClassDeclaration.backwards,
    List.forall₂_map_right_iff.mpr (List.forall₂_same.mpr fun c _ => c.reordered_backwards), (List.reverse_perm _).symm⟩

namespace Reordered

variable {u u' : SourceUnit} (reordered : u.Reordered u')
include reordered

theorem exists_class {c : ClassDeclaration} (member : c ∈ u.classes) : ∃ c' ∈ u'.classes, c.Reordered c' := by
  obtain ⟨classes, each, permuted⟩ := reordered.classes
  obtain ⟨c', listed, same⟩ := each.exists_right member
  exact ⟨c', permuted.mem_iff.mp listed, same⟩

theorem exists_original {c' : ClassDeclaration} (member : c' ∈ u'.classes) : ∃ c ∈ u.classes, c.Reordered c' := by
  obtain ⟨classes, each, permuted⟩ := reordered.classes
  exact each.exists_left (permuted.mem_iff.mpr member)

/-- A reordering stays one when the spans are taken away. -/
theorem erase : u.erase.Reordered u'.erase where
  package := congrArg (·.map DottedName.erase) reordered.package
  classes := by
    obtain ⟨classes, each, permuted⟩ := reordered.classes
    refine ⟨classes.map ClassDeclaration.erase, ?_, permuted.map _⟩
    exact List.forall₂_map_left_iff.mpr (List.forall₂_map_right_iff.mpr (each.imp fun _ _ same => same.erase))

/-- The classes have the same names. -/
theorem names : (u'.classes.map (·.name.name)).Perm (u.classes.map (·.name.name)) := by
  obtain ⟨classes, each, permuted⟩ := reordered.classes
  have same : u.classes.map (·.name.name) = classes.map (·.name.name) := by
    rw [← List.forall₂_eq_eq_eq, List.forall₂_map_left_iff, List.forall₂_map_right_iff]
    exact each.imp fun _ _ same => congrArg Ident.name same.name.symm
  rw [same]
  exact (permuted.map _).symm

theorem lower_eq_ok_iff (qualifiedName : String) (p : Program) :
    u'.lower qualifiedName = .ok p ↔ u.lower qualifiedName = .ok p := by
  rw [SourceUnit.lower_eq_ok_iff, SourceUnit.lower_eq_ok_iff, reordered.package, reordered.names.nodup_iff]
  refine and_congr_right fun _ => and_congr_right fun _ => and_congr ⟨fun each c member => ?_, fun each c' member => ?_⟩
    ⟨?_, ?_⟩
  · obtain ⟨c', listed, same⟩ := reordered.exists_class member
    obtain ⟨program, done⟩ := each c' listed
    exact ⟨program, same.lower_eq_done_iff.mp done⟩
  · obtain ⟨c, listed, same⟩ := reordered.exists_original member
    obtain ⟨program, done⟩ := each c listed
    exact ⟨program, same.lower_eq_done_iff.mpr done⟩
  · rintro ⟨c', member, named, done⟩
    obtain ⟨c, listed, same⟩ := reordered.exists_original member
    exact ⟨c, listed, same.name ▸ named, same.lower_eq_done_iff.mp done⟩
  · rintro ⟨c, member, named, done⟩
    obtain ⟨c', listed, same⟩ := reordered.exists_class member
    exact ⟨c', listed, same.name.symm ▸ named, same.lower_eq_done_iff.mpr done⟩

end Reordered

/-- Declaration order matters only among fields. Of two units that differ in nothing but their spans, the order of their
classes and the order of the members of a class, its fields apart, one is lowered exactly when the other is, and to the
same program. -/
theorem lower_reordered {u u' : SourceUnit} (reordered : u.erase.Reordered u'.erase) (qualifiedName : String)
    (p : Program) : u.lower qualifiedName = .ok p ↔ u'.lower qualifiedName = .ok p := by
  rw [← lower_erase_eq_ok_iff (u := u), ← lower_erase_eq_ok_iff (u := u'), reordered.lower_eq_ok_iff]

end SourceUnit

/-- A class that calls a method and uses a field before they are declared, with another class below it. -/
def forwardSource : String :=
  "class Routes \x7b void configure() \x7b prepare(); from(origin); \x7d String scheme = \"direct:\"; " ++
  "void prepare() \x7b \x7d String origin = scheme + \"a\"; \x7d class Other \x7b \x7d"

/-- The other class comes first in the reordered unit, and `prepare` stands above `configure`. -/
theorem SourceUnit.lower_reordered_forward :
    ∃ u p, SourceUnit.ofTokens (Lexed.ofSource forwardSource).tokens (Lexed.ofSource forwardSource).stopSpan = .ok u ∧
      u.erase.Reordered u.backwards.erase ∧ u.lower "Routes" = .ok p ∧ u.backwards.lower "Routes" = .ok p := by
  have success : (compile "Routes" forwardSource).isOk := by
    have lexed : Lexed.ofSource forwardSource = _ := Lexed.ofSource_eq
      (Lexed.toList_append_eq String.toList_ofList String.toList_ofList)
    rw [compile, lexed]
    decide +kernel
  obtain ⟨p, compiled⟩ := Except.exists_of_isOk success
  obtain ⟨u, parsed, lowered⟩ := unit_of_compile_eq_ok compiled
  have reordered := u.reordered_backwards.erase
  exact ⟨u, p, parsed, reordered, lowered, (SourceUnit.lower_reordered reordered "Routes" p).mp lowered⟩

-- Among fields the order does matter: each may use the ones above it alone.
example : (compile "A" "class A \x7b int a = 1; int b = a + 1; \x7d").isOk = true ∧
    (compile "A" "class A \x7b int b = a + 1; int a = 1; \x7d").isOk = false := by decide +kernel

end RouteDepot.RouteClass
