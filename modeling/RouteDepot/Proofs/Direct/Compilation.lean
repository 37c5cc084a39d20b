import RouteDepot.Proofs.Direct.Statement
import RouteDepot.Proofs.Instantiation

/-! # Compilation preserves meaning

Configuring an instance of a program that compiles has the outcome of running the parsed class directly: the same
result, and the same routes, services and REST configurations defined on the way.
-/

namespace RouteDepot.RouteClass

open Direct

/-! ### Fields -/

namespace Direct

/-- A field has the value that it is lowered to. -/
theorem fieldValue_of_lower {scope : Scope} (noLocals : scope.locals = []) {f : FieldDeclaration} {value : Value}
    (lowered : f.lower scope = .done value) : fieldValue scope.fields f = .ok value := by
  unfold fieldValue
  unfold FieldDeclaration.lower at lowered
  split at lowered
  · rename_i none
    rw [none]
    exact congrArg _ (Lowered.done_inj.mp lowered)
  · rename_i e given
    rw [given]
    obtain ⟨operand?, attempted, lowered⟩ := Lowered.bind_eq_done_iff.mp lowered
    obtain ⟨found, clean⟩ := Lowered.attempt_eq_done_iff.mp attempted
    obtain ⟨operand, done⟩ := e.explained_operand scope clean
    obtain rfl : some operand = operand? := by rw [← found, done]; rfl
    split at lowered
    · contradiction
    · rename_i constant same
      obtain rfl := Option.some.inj same
      simp only [Lowered.bind_eq_done_iff, Lowered.pure_eq_done, Lowered.done_inj] at lowered
      obtain ⟨_, _, rfl⟩ := lowered
      have agrees : Agrees scope { reach := none, fields := scope.fields, methods := [] } [] :=
        ⟨rfl, by simp [noLocals], fun _ _ => rfl⟩
      exact (agrees.eval done).trans (valueOf_const _ _)
    · obtain ⟨_, reported, _⟩ := Lowered.bind_eq_done_iff.mp lowered
      exact absurd reported Lowered.report_ne_done

theorem fieldValues_of_lowerFields {scope : Scope} (noLocals : scope.locals = []) {declarations : List FieldDeclaration}
    {fields : List (String × Value)} (lowered : lowerFields scope declarations = .done fields) :
    fieldValues scope.fields declarations = .ok fields := by
  induction declarations generalizing scope with
  | nil => exact congrArg _ (Lowered.done_inj.mp lowered)
  | cons f later ih =>
    unfold lowerFields at lowered
    obtain ⟨value, first, lowered⟩ := Lowered.bind_eq_done_iff.mp lowered
    rw [fieldValues, fieldValue_of_lower noLocals first]
    split at lowered
    · obtain ⟨_, reported, _⟩ := Lowered.bind_eq_done_iff.mp lowered
      exact absurd reported Lowered.report_ne_done
    · exact @ih { scope with fields := scope.fields ++ [(f.name.name, value)] } noLocals lowered

end Direct

/-! ### Methods -/

namespace ClassDeclaration.Accepted

variable {c : ClassDeclaration} {fields : List (String × Value)} {bodies : List (Option (String × List Instruction))}
  {p : Program}

/-- What the methods of a class refer to when properties are bound. -/
def environment (c : ClassDeclaration) (fields : List (String × Value)) (properties : Properties) :
    Direct.Environment where
  reach := some properties
  fields := fields
  methods := c.methods.map (·.name.name)

theorem mem_methods_iff (name : String) (properties : Properties) :
    name ∈ (environment c fields properties).methods ↔ (c.scope fields).declares name := by
  simp only [environment, Scope.declares, scope, List.mem_map, List.mem_filter]
  constructor
  · rintro ⟨m, member, rfl⟩
    cases plain : m.parameters.isEmpty
    · exact .inr ⟨m, ⟨member, by simp [plain]⟩, rfl⟩
    · exact .inl ⟨m, ⟨member, plain⟩, rfl⟩
  · rintro (⟨m, ⟨member, _⟩, rfl⟩ | ⟨m, ⟨member, _⟩, rfl⟩)
    · exact ⟨m, member, rfl⟩
    · exact ⟨m, member, rfl⟩

/-- Calling a method of the class directly is calling the method of the program, at every depth of open calls. -/
theorem call_eq (accepted : c.Accepted fields bodies p) (concrete : p.isAbstract = false) (properties : Properties)
    (room : Nat) {name : String} (declared : name ∈ (c.scope fields).methods) :
    Direct.call c (environment c fields properties) room name = Exec.ofRun (p.call (some properties) room name) := by
  -- The body of a method means its instructions once the calls in it do, which have less room.
  induction room generalizing name with
  | zero => rfl
  | succ room ih =>
    obtain ⟨other, listed, rfl⟩ := List.mem_map.mp declared
    obtain ⟨m, found⟩ : ∃ m, c.methods.find? (fun m => m.name.name == other.name.name && m.parameters.isEmpty) =
        some m := by
      rw [← Option.isSome_iff_exists, List.find?_isSome]
      exact ⟨other, (List.mem_filter.mp listed).1, by simpa using (List.mem_filter.mp listed).2⟩
    have member := List.mem_of_find?_eq_some found
    obtain ⟨same, plain⟩ : m.name.name = other.name.name ∧ m.parameters = [] := by
      simpa using List.find?_some found
    obtain ⟨instructions, stored, body, hasBody, lowered⟩ := accepted.get?_methods_isSome concrete member plain
    rw [same] at stored
    obtain ⟨value, clean⟩ := Lowered.eq_done_iff.mp lowered
    obtain rfl := Option.some.inj value
    have agrees : Agrees { c.scope fields with place := .method, body := m.name.name }
        (environment c fields properties) [] := ⟨rfl, nofun, fun _ _ => rfl⟩
    obtain ⟨after, runs⟩ := runsAs_statements agrees (mem_methods_iff · properties) (fun _ => ih) body.body clean
    simp only [Direct.call, found, hasBody, Program.call, stored, runs.run_eq]
    simp only [bind_assoc, pure_bind, bind_pure_unit]
    rfl

end ClassDeclaration.Accepted

/-! ### Programs -/

end RouteDepot.RouteClass
