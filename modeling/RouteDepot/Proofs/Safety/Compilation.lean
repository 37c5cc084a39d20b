import RouteDepot.Proofs.Instantiation
import RouteDepot.Proofs.Safety.Failure

/-! # Programs that compile do not go wrong

A program that compiles can be instantiated unless it is abstract, has no constructor without parameters, or throws in
that constructor. Its instances call only methods that exist, with arguments of accepted types, so that configuring
one against a context fails only for a reason that the source gives.
-/

namespace RouteDepot.RouteClass

/-- A program that does not go wrong. -/
structure Program.Safe (p : Program) : Prop where
  /-- The constructor only returns or throws. -/
  constructor_ends : ∀ instructions, p.constructor = some instructions → ∀ i ∈ instructions, i.Ending
  /-- What the constructor throws is what a failed instantiation reports. -/
  instantiation_fails : ∀ error, Instance.create p = .error error →
    error = .isAbstract p.qualifiedName ∨ error = .noDefaultConstructor p.qualifiedName ∨
      ∃ instructions exception, ∃ message : Option String, p.constructor = some instructions ∧
        .throw exception (message.map fun text => .const (.str text)) ∈ instructions ∧
        error = .constructorThrew p.qualifiedName exception (message.getD "")
  /-- A new instance has defined nothing. -/
  instance_fresh : ∀ i, Instance.create p = .ok i →
    i.definitions.routes = [] ∧ i.definitions.services = [] ∧ i.definitions.configurations = none
  /-- Methods that are called exist. -/
  invoked_exists : p.isAbstract = false → ∀ instructions, p.HasBody instructions → ∀ method,
    .invoke method ∈ instructions → ∃ body, p.methods.get? method = some body
  /-- A route builder has a method to configure it. -/
  configure_exists : p.isAbstract = false → p.isRouteBuilder = true → ∃ body, p.methods.get? "configure" = some body
  /-- Arguments have accepted types, and values of these types. -/
  arguments_suit : ∀ instructions, p.HasBody instructions → ∀ i ∈ instructions, ∀ argument ∈ i.arguments,
    argument.1.Suits argument.2
  /-- Configuring a new instance against properties fails at an instruction that is reached and that fails for one of
  the reasons, unless the class is no route builder and has no method to configure it. -/
  configure_fails : ∀ i properties error, Instance.create p = .ok i →
    (i.bind properties).configure.2 = .error error →
      (∃ body left j, p.methods.get? "configure" = some body ∧
        p.Reaches (some properties) callDepthLimit body {} left j ∧ j.FailsWith properties left error) ∨
      p.isRouteBuilder = false ∧ p.methods.get? "configure" = none ∧ error = .misused (.missingConfigure p.name)

namespace ClassDeclaration.Accepted

variable {c : ClassDeclaration} {fields : List (String × Value)} {bodies : List (Option (String × List Instruction))}
  {p : Program}

/-- Instantiating an accepted class fails only by what its constructor throws. -/
theorem instantiation_fails (accepted : c.Accepted fields bodies p) {error : InstantiationError}
    (failed : Instance.create p = .error error) :
    error = .isAbstract p.qualifiedName ∨ error = .noDefaultConstructor p.qualifiedName ∨
      ∃ instructions exception, ∃ message : Option String, p.constructor = some instructions ∧
        .throw exception (message.map fun text => .const (.str text)) ∈ instructions ∧
        error = .constructorThrew p.qualifiedName exception (message.getD "") := by
  unfold Instance.create at failed
  split at failed
  · exact .inl (Except.error.inj failed).symm
  · split at failed
    · exact .inr (.inl (Except.error.inj failed).symm)
    · rename_i instructions constructor
      split at failed
      · cases failed
      · rename_i fault _ ran
        obtain ⟨exception, message, member, rfl⟩ :=
          (run_ending (accepted.ending_of_constructor constructor) {}).2 fault (congrArg Prod.fst ran)
        exact .inr (.inr ⟨instructions, exception, message, constructor, member, (Except.error.inj failed).symm⟩)

/-- The methods of an accepted class that is not abstract are sound and exist. -/
theorem closed (accepted : c.Accepted fields bodies p) (concrete : p.isAbstract = false) :
    p.Closed (c.scope fields).methods where
  sound := fun name _ stored => accepted.sound (.inr ⟨name, stored⟩)
  defined := by
    intro name declared
    obtain ⟨m, listed, rfl⟩ := List.mem_map.mp declared
    obtain ⟨member, plain⟩ := List.mem_filter.mp listed
    obtain ⟨instructions, stored, _⟩ := accepted.get?_methods_isSome concrete member (List.isEmpty_iff.mp plain)
    exact ⟨instructions, stored⟩

theorem safe (accepted : c.Accepted fields bodies p) : p.Safe where
  constructor_ends := fun _ constructor => accepted.ending_of_constructor constructor
  instantiation_fails := fun _ failed => accepted.instantiation_fails failed
  instance_fresh := by
    intro i created
    obtain ⟨_, rfl⟩ := Instance.eq_of_create_eq_ok accepted created
    exact ⟨rfl, rfl, rfl⟩
  invoked_exists := by
    intro concrete instructions body method member
    exact (accepted.closed concrete).defined method ((accepted.sound body _ member).declared method rfl)
  configure_exists := fun concrete builder => Option.isSome_iff_exists.mp (accepted.configure_isSome builder concrete)
  arguments_suit := fun _ body i member => (accepted.sound body i member).suits
  configure_fails := by
    intro i properties error created failed
    obtain ⟨concrete, rfl⟩ := Instance.eq_of_create_eq_ok accepted created
    simp only [Instance.bind, Instance.configure, Bool.false_eq_true, if_false] at failed
    cases stored : p.methods.get? "configure" with
    | none =>
      rw [stored] at failed
      refine .inr ⟨?_, rfl, (Except.error.inj failed).symm⟩
      rw [← Bool.not_eq_true]
      intro builder
      simpa [stored] using accepted.configure_isSome builder concrete
    | some body =>
      rw [stored] at failed
      obtain ⟨left, j, reaches, fails⟩ := (accepted.closed concrete).exists_failsWith
        (accepted.sound (.inr ⟨"configure", stored⟩)) failed
      exact .inl ⟨body, left, j, rfl, reaches, fails⟩

end ClassDeclaration.Accepted

/-- Programs that compile do not go wrong. -/
theorem safe_of_compile {qualifiedName source : String} {p : Program}
    (compiled : compile qualifiedName source = .ok p) : p.Safe := by
  obtain ⟨u, c, _, _, lowered⟩ := exists_of_compile_eq_ok compiled
  obtain ⟨fields, bodies, accepted⟩ := ClassDeclaration.accepted_of_lower lowered
  exact accepted.safe

/-- A route builder whose constructor throws, and whose methods call each other without end. -/
def endlessSource : String :=
  "class Endless extends RouteBuilder \x7b Endless() \x7b throw new Unready(\"no\"); \x7d " ++
  "void configure() \x7b again(); \x7d void again() \x7b from(\"a\").log(\"b\"); configure(); \x7d \x7d"

theorem safe_of_compile_endless : ∃ p, compile "Endless" endlessSource = .ok p ∧ p.Safe := by
  have success : (compile "Endless" endlessSource).isOk := by
    have lexed : Lexed.ofSource endlessSource = _ := Lexed.ofSource_eq
      (Lexed.toList_append_eq String.toList_ofList String.toList_ofList)
    rw [compile, lexed]
    decide +kernel
  obtain ⟨p, compiled⟩ := Except.exists_of_isOk success
  exact ⟨p, compiled, safe_of_compile compiled⟩

end RouteDepot.RouteClass
