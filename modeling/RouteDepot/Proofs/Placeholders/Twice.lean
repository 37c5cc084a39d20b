import RouteDepot.Load.Loader
import RouteDepot.Proofs.Placeholders.Rewritten

/-! # Resolving twice

Where no value of a property and no default in a text has an opening brace, the text can be resolved by route code and
once more when it is merged: the source is loaded as if it had been resolved once.
-/

namespace RouteDepot.RouteClass

/-- A source whose text resolves early is loaded like one whose text does not, unless a placeholder fails to resolve
while the source is configured. -/
theorem Program.Early.load {p p' : Program} {context : Context} (values : context.properties.Braceless)
    (early : p.Early (Operand.BracelessDefaults context.properties) p')
    {source : Source} {resolve resolve' : String → Except ResolutionError String} {content content' : String}
    (found : resolve source.location = .ok content) (found' : resolve' source.location = .ok content')
    (compiled : compile (QualifiedName.determine source.name content ".java") content = .ok p)
    (compiled' : compile (QualifiedName.determine source.name content' ".java") content' = .ok p') :
    (∃ fault, Unresolved context.properties fault ∧
        compiler.load resolve' context source =
          (context, .error ⟨source.location, .instantiated, .configuration fault, none⟩)) ∨
      (compiler.load resolve context source).1 = (compiler.load resolve' context source).1 ∧
        bundleMeaning context.properties <$> (compiler.load resolve context source).2 =
          bundleMeaning context.properties <$> (compiler.load resolve' context source).2 := by
  by_cases spoken : source.language = "java"
  · simp only [Compiler.load, Compiler.bundleOf, Compiler.bundleOfContent, compiler, spoken, if_true, found, found',
      compiled, compiled', Except.mapError_ok, Except.bind_ok, Except.map]
    obtain ⟨error, failed, failed'⟩ | ⟨created, created'⟩ := early.create compiled
    · rw [failed, failed']
      exact .inr ⟨rfl, rfl⟩
    · rw [created, created']
      simp only [Except.mapError_ok, Except.bind_ok]
      obtain ⟨fault, failed, unresolved⟩ | same := early.bundle values
      · rw [failed]
        exact .inl ⟨fault, unresolved, rfl⟩
      · refine .inr ?_
        revert same
        generalize Instance.bundle { program := p } context.properties = late
        generalize Instance.bundle { program := p' } context.properties = soon
        intro same
        rcases late with fault | bundle <;> rcases soon with fault' | bundle'
        · obtain rfl : fault = fault' := Except.error.inj same
          exact ⟨rfl, rfl⟩
        · cases same
        · cases same
        · have same : bundleMeaning context.properties bundle = bundleMeaning context.properties bundle' :=
            Except.ok.inj same
          have merged := merge_eq_of_map_eq context (Prod.mk.inj (Prod.mk.inj same).2).2
          simp only [Except.mapError_ok, Except.bind_ok, Except.pure_eq_ok, merged]
          cases context.merge bundle'.configurations with
          | error fault => exact ⟨rfl, rfl⟩
          | ok next => exact ⟨rfl, congrArg Except.ok same⟩
  · have refused (resolve : String → Except ResolutionError String) : compiler.load resolve context source =
        (context, .error ⟨source.location, .resolving, .unsupportedLanguage source.language ["java"], none⟩) := by
      rw [Compiler.load, Compiler.bundleOf, if_neg (by exact spoken)]
      rfl
    rw [refused, refused]
    exact .inr ⟨rfl, rfl⟩

/-- Where no property has a value with an opening brace, resolving cannot make a placeholder, and so resolving twice is
resolving once. A text without such defaults resolves to one without placeholders. A source that is rewritten so that
texts of REST configurations are resolved early compiles to the program with these texts resolved early; where these
texts have no such defaults, it is loaded like the source before, unless one of them fails to resolve early. -/
theorem resolving_twice {context : Context} (values : context.properties.Braceless) :
    (∀ text resolved, Placeholder.BracelessDefaults text → context.resolve text = .ok resolved →
      ¬ ['{', '{'] <:+: resolved.toList ∧ context.resolve resolved = .ok resolved) ∧
    (∀ property qualifiedName content content' p p', ResolvesEarly property content content' →
      compile qualifiedName content = .ok p → compile qualifiedName content' = .ok p' → p.Early property p') ∧
    ∀ (p p' : Program) (source : Source) (resolve resolve' : String → Except ResolutionError String)
        (content content' : String), p.Early (Operand.BracelessDefaults context.properties) p' →
      resolve source.location = .ok content → resolve' source.location = .ok content' →
      compile (QualifiedName.determine source.name content ".java") content = .ok p →
      compile (QualifiedName.determine source.name content' ".java") content' = .ok p' →
      (∃ fault, Unresolved context.properties fault ∧
          compiler.load resolve' context source =
            (context, .error ⟨source.location, .instantiated, .configuration fault, none⟩)) ∨
        (compiler.load resolve context source).1 = (compiler.load resolve' context source).1 ∧
          bundleMeaning context.properties <$> (compiler.load resolve context source).2 =
            bundleMeaning context.properties <$> (compiler.load resolve' context source).2 := by
  refine ⟨?_, ?_, ?_⟩
  · exact fun text resolved defaults success => Placeholder.plain_of_resolve values defaults success
  · exact fun property qualifiedName content content' p p' early compiled compiled' =>
      compile_early early compiled compiled'
  · intro p p' source resolve resolve' content content' early found found' compiled compiled'
    exact early.load values found found' compiled compiled'

/-- A text with a placeholder for a property and one for a default. -/
def hostText : String := "\x7b\x7bat:none\x7d\x7d:\x7b\x7bport:80\x7d\x7d"

/-- A route builder that gives a host. -/
def hostSource (host : String) : String :=
  "class Hosted extends RouteBuilder \x7b void configure() \x7b restConfiguration().host(" ++ host ++ "); \x7d \x7d"

/-- A route builder that gives the text as a host. -/
def plainHostSource : String := hostSource ("\"" ++ hostText ++ "\"")

/-- A route builder that gives the text as a host and resolves it early. -/
def resolvedHostSource : String :=
  hostSource ("getContext().resolvePropertyPlaceholders(\"" ++ hostText ++ "\")")

/-- The statement that gives a host. -/
def hostStatement (host : Expression) : Statement :=
  .expression (.callOn (.call ⟨"restConfiguration", ⟨0, 0⟩⟩ [] ⟨0, 0⟩) ⟨"host", ⟨0, 0⟩⟩ [host] ⟨0, 0⟩)

/-- The tree of a route builder that gives a host. -/
def hostUnit (host : Expression) : SourceUnit where
  package := none
  imports := []
  classes := [{
    modifiers := {}
    name := ⟨"Hosted", ⟨0, 0⟩⟩
    parent := some ⟨["RouteBuilder"], ⟨0, 0⟩⟩
    interfaces := []
    members := [
      .method {
        modifiers := {}
        result := none
        name := ⟨"configure", ⟨0, 0⟩⟩
        parameters := []
        throws := []
        body := some ⟨[hostStatement host], ⟨0, 0⟩⟩ }]
    span := ⟨0, 0⟩ }]

/-- The text as an expression. -/
def hostLiteral : Expression := .literal (.str hostText) ⟨0, 0⟩

/-- The text as an expression that resolves it early. -/
def resolvedHostLiteral : Expression :=
  .callOn (.call ⟨"getContext", ⟨0, 0⟩⟩ [] ⟨0, 0⟩) ⟨"resolvePropertyPlaceholders", ⟨0, 0⟩⟩ [hostLiteral] ⟨0, 0⟩

theorem hostUnit_early {properties : Properties} :
    (hostUnit hostLiteral).Early (Operand.BracelessDefaults properties) (hostUnit resolvedHostLiteral) := by
  have defaults (scope : Scope) (text : Operand) (lowered : hostLiteral.operand scope = .done text) :
      text.BracelessDefaults properties := by
    obtain rfl := Lowered.done_inj.mp lowered
    rintro shown evaluated
    obtain rfl := Except.ok.inj evaluated
    exact (by decide +kernel : Placeholder.BracelessDefaults hostText)
  have resolves : hostLiteral.Resolving resolvedHostLiteral := .intro ⟨0, 0⟩ rfl rfl
  have call : ChainCall.Early (Operand.BracelessDefaults properties) _ _ :=
    .resolved ⟨"host", ⟨0, 0⟩⟩ [] ⟨0, 0⟩ ⟨0, 0⟩ resolves defaults
  have statement : (hostStatement hostLiteral).Early (Operand.BracelessDefaults properties)
      (hostStatement resolvedHostLiteral) := .restConfiguration rfl rfl rfl (.cons call .nil)
  exact ⟨rfl, .cons ⟨rfl, .cons (.method ⟨rfl, .some (.cons statement .nil)⟩) .nil⟩ .nil⟩

/-- The sources of the route builders resolve early. -/
theorem resolvesEarly_hostSource {properties : Properties} :
    ResolvesEarly (Operand.BracelessDefaults properties) plainHostSource resolvedHostSource := by
  have early : (hostUnit hostLiteral).erase.Early (Operand.BracelessDefaults properties)
      (hostUnit resolvedHostLiteral).erase := hostUnit_early
  refine resolvesEarly_of_print early ?_ ?_ ?_ ?_
  · simp [hostUnit, hostStatement, hostLiteral, resolvedHostLiteral, SourceUnit.WellFormed, ClassDeclaration.WellFormed,
      Member.WellFormed, Modifiers.WellFormed, DottedName.WellFormed, Block.WellFormed, Statement.AllWellFormed,
      Statement.WellFormed, Expression.WellFormed, Expression.AllWellFormed]
  · simp [hostUnit, hostStatement, hostLiteral, resolvedHostLiteral, SourceUnit.WithinLimits, Member.WithinLimits,
      Block.WithinLimits, Block.depth, Block.mostLinks, Statement.depthAll, Statement.depth, Statement.mostLinksAll,
      Statement.mostLinks, Expression.depth, Expression.nesting, Expression.depthAll, Expression.links,
      Expression.linksAll, Expression.isSum, Parser.nestingLimit, Parser.linkLimit]
  · decide +kernel
  · decide +kernel

/-- A context with one property. -/
def localContext : Context := { name := "local", properties := .ofList [("at", "localhost")] }

/-- The host is the same whether it is resolved once or twice. -/
theorem resolving_twice_host :
    localContext.properties.Braceless ∧
      (compiler.load (fun _ => .ok plainHostSource) localContext ⟨"Hosted.java", "Hosted.java", "java"⟩).1 =
        (compiler.load (fun _ => .ok resolvedHostSource) localContext ⟨"Hosted.java", "Hosted.java", "java"⟩).1 ∧
      (compiler.load (fun _ => .ok resolvedHostSource) localContext
        ⟨"Hosted.java", "Hosted.java", "java"⟩).1.held.map (·.host) = [some "localhost:80"] := by
  have values : localContext.properties.Braceless := by
    intro key value found
    rw [localContext, Dictionary.get?_ofList, List.reverse_singleton, lookup_cons_ite] at found
    split at found
    · obtain rfl := Option.some.inj found
      decide
    · cases found
  have loaded : (fun outcome : Context × Except LoadError Bundle => (outcome.2.isOk, outcome.1.held.map (·.host)))
      (compiler.load (fun _ => .ok resolvedHostSource) localContext ⟨"Hosted.java", "Hosted.java", "java"⟩) =
        (true, [some "localhost:80"]) := by decide +kernel
  obtain ⟨success, hosts⟩ := Prod.mk.inj loaded
  have named : QualifiedName.determine "Hosted.java" plainHostSource ".java" = "Hosted" := by decide +kernel
  have named' : QualifiedName.determine "Hosted.java" resolvedHostSource ".java" = "Hosted" := by decide +kernel
  obtain ⟨p, compiled⟩ : ∃ p, compile "Hosted" plainHostSource = .ok p := Except.exists_of_isOk (by decide +kernel)
  obtain ⟨p', compiled'⟩ : ∃ p, compile "Hosted" resolvedHostSource = .ok p := Except.exists_of_isOk (by decide +kernel)
  have early := (resolving_twice values).2.1 (Operand.BracelessDefaults localContext.properties) _ _ _ _ _
    resolvesEarly_hostSource compiled compiled'
  obtain ⟨_, _, failed⟩ | same := (resolving_twice values).2.2 _ _ ⟨"Hosted.java", "Hosted.java", "java"⟩
    (fun _ => .ok plainHostSource) (fun _ => .ok resolvedHostSource) _ _ early rfl rfl
    (named.symm ▸ compiled) (named'.symm ▸ compiled')
  · rw [failed] at success
    cases success
  · exact ⟨values, same.1, hosts⟩

end RouteDepot.RouteClass
