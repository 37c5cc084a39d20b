import RouteDepot.Proofs.Concatenation.Built

/-! # Sums with parentheses in different places

Where of any two neighbouring terms at least one is a text, no sum of terms adds numbers, however its parentheses are
put. Its operand then joins the operands of the terms, one after the other, and is determined by them. Together with the
meaning and the form of what is appended, this is what can be relied on of the concatenations that lowering builds.
-/

namespace RouteDepot.RouteClass

/-! ### Joining operands -/

/-- A canonical operand whose parts are those of others one after the other, with neighbouring constants merged. -/
structure Operand.Joins (operands : List Operand) (whole : Operand) : Prop where
  canonical : whole.Canonical
  parts_eq : whole.parts = mergeConstants (operands.flatMap Operand.parts)

namespace Operand.Joins

theorem singleton {operand : Operand} (canonical : operand.Canonical) : Joins [operand] operand where
  canonical := canonical
  parts_eq := by rw [List.flatMap_singleton, canonical.tidy_parts.mergeConstants_eq]

theorem append {first later : List Operand} {left right : Operand} (leftJoins : Joins first left)
    (rightJoins : Joins later right) : Joins (first ++ later) (left.append right) := by
  obtain ⟨canonical, parts⟩ := canonical_append_and_parts leftJoins.canonical rightJoins.canonical
  refine ⟨canonical, ?_⟩
  rw [parts, leftJoins.parts_eq, rightJoins.parts_eq, mergeConstants_append_merged, List.flatMap_append]

/-- There is only one operand that joins given ones. -/
theorem unique {operands : List Operand} {whole other : Operand} (joins : Joins operands whole)
    (otherJoins : Joins operands other) : whole = other :=
  joins.canonical.eq_of_parts_eq otherJoins.canonical (joins.parts_eq.trans otherJoins.parts_eq.symm)

end Operand.Joins

namespace Lowered

/-- Several operands are lowered, and one that joins them if they all have values, with the same faults. -/
structure Joins (operands : Lowered (List Operand)) (whole : Lowered Operand) : Prop where
  values : Option.Rel Operand.Joins operands.value? whole.value?
  faults : operands.faults = whole.faults

theorem joins_singleton {result : Lowered Operand}
    (canonical : ∀ operand, result.value? = some operand → operand.Canonical) : Joins (all [result]) result := by
  have faults : (all [result]).faults = result.faults := by
    rw [all, map_eq, both, all, done, List.append_nil]
  refine ⟨?_, faults⟩
  rw [all, map_eq, both, all, done]
  cases found : result.value? with
  | none => exact .none
  | some operand => exact .some (.singleton (canonical operand found))

theorem Joins.append {first later : Lowered (List Operand)} {left right : Lowered Operand}
    (leftJoins : Joins first left) (rightJoins : Joins later right) :
    Joins ((fun pair => pair.1 ++ pair.2) <$> first.both later)
      ((fun pair => pair.1.append pair.2) <$> left.both right) := by
  obtain ⟨first?, _⟩ := first
  obtain ⟨left?, _⟩ := left
  obtain ⟨later?, _⟩ := later
  obtain ⟨right?, _⟩ := right
  obtain ⟨leftValues, rfl⟩ := leftJoins
  obtain ⟨rightValues, rfl⟩ := rightJoins
  rw [map_eq, map_eq]
  refine ⟨?_, rfl⟩
  cases leftValues with
  | none => exact .none
  | some joined =>
    cases rightValues with
    | none => exact .none
    | some others => exact .some (joined.append others)

/-- What is lowered to the same operands and faults is lowered alike. -/
theorem Joins.unique {operands : Lowered (List Operand)} {whole other : Lowered Operand} (joins : Joins operands whole)
    (otherJoins : Joins operands other) : whole = other := by
  obtain ⟨operands?, faults⟩ := operands
  obtain ⟨whole?, wholeFaults⟩ := whole
  obtain ⟨other?, otherFaults⟩ := other
  obtain ⟨values, rfl⟩ := joins
  obtain ⟨otherValues, rfl⟩ := otherJoins
  cases values with
  | none =>
    cases otherValues
    rfl
  | some first =>
    cases otherValues with
    | some second => rw [first.unique second]

/-- What operands without faults are joined to has no faults. -/
theorem Joins.eq_done {operands : List Operand} {whole : Lowered Operand} (joins : Joins (done operands) whole) :
    ∃ operand, whole = done operand := by
  obtain ⟨whole?, faults⟩ := whole
  obtain ⟨values, rfl⟩ := joins
  cases values with
  | @some _ operand _ => exact ⟨operand, rfl⟩

/-- Lowering two lists one after the other is lowering the longer one. -/
theorem all_append {α : Type} (first later : List (Lowered α)) :
    all (first ++ later) = (fun pair => pair.1 ++ pair.2) <$> (all first).both (all later) := by
  induction first with
  | nil =>
    rw [List.nil_append, all, map_eq]
    generalize all later = rest
    obtain ⟨_ | values, faults⟩ := rest <;> rfl
  | cons result first ih =>
    rw [List.cons_append, all, ih, all]
    simp only [map_eq, both, List.append_assoc, mk.injEq, and_true]
    cases result.value? <;> cases (all first).value? <;> cases (all later).value? <;> rfl

end Lowered

/-! ### Sums -/

namespace Expression

/-- An expression is the sum of terms in their order, with parentheses put in some way. Parentheses are not kept in a
tree; where they stand is its shape. -/
inductive SumOf : List Expression → Expression → Prop
  | term (e : Expression) : SumOf [e] e
  | plus {first later : List Expression} {left right : Expression} (leftSum : SumOf first left)
      (rightSum : SumOf later right) : SumOf (first ++ later) (.concat left right)

/-- An expression whose operand, if it has one, is a text. -/
def IsText (scope : Scope) (e : Expression) : Prop :=
  ∀ operand, (e.operand scope).value? = some operand → operand.type = .str

/-- Of any two neighbouring terms at least one is a text. -/
def TextsBetween (scope : Scope) (terms : List Expression) : Prop :=
  terms.IsChain fun a b => a.IsText scope ∨ b.IsText scope

variable {scope : Scope} {left right : Expression}

/-- A sum with a text on one side is lowered to what is appended. -/
theorem operand_concat (text : left.IsText scope ∨ right.IsText scope) :
    (concat left right).operand scope =
      (fun pair => pair.1.append pair.2) <$> (left.operand scope).both (right.operand scope) := by
  rw [operand]
  refine Lowered.bind_eq_bind fun pair found => ?_
  obtain ⟨foundLeft, foundRight⟩ := Lowered.value?_both_eq_some_iff.mp found
  exact Operand.plus_of_text (text.imp (· _ foundLeft) (· _ foundRight))

theorem isText_concat (text : left.IsText scope ∨ right.IsText scope) : (concat left right).IsText scope := by
  intro operand found
  rw [operand_concat text, Lowered.map_eq] at found
  obtain ⟨pair, _, rfl⟩ := Option.map_eq_some_iff.mp found
  exact Operand.type_append _ _

/-- Next to a single term stands a text, and so does it next to a text. -/
theorem text_beside {first later : List Expression} (leftText : first = [left] ∨ left.IsText scope)
    (rightText : later = [right] ∨ right.IsText scope) (texts : TextsBetween scope (first ++ later)) :
    left.IsText scope ∨ right.IsText scope := by
  obtain rfl | text := leftText
  · obtain rfl | text := rightText
    · simpa [TextsBetween] using texts
    · exact .inr text
  · exact .inl text

namespace SumOf

variable {terms : List Expression} {e e' : Expression}

/-- A sum of terms with texts between them is a text, unless it is a single term. -/
theorem isText (sum : SumOf terms e) (texts : TextsBetween scope terms) : terms = [e] ∨ e.IsText scope := by
  induction sum with
  | term e => exact .inl rfl
  | plus _ _ ihl ihr =>
    exact .inr (isText_concat (text_beside (ihl texts.left_of_append) (ihr texts.right_of_append) texts))

/-- A sum of terms with texts between them is lowered to what joins the operands of the terms, with their faults. -/
theorem joins (sum : SumOf terms e) (canonical : scope.LocalsCanonical) (texts : TextsBetween scope terms) :
    Lowered.Joins (.all (terms.map (·.operand scope))) (e.operand scope) := by
  induction sum with
  | term e => exact Lowered.joins_singleton fun _ => canonical.operand
  | plus leftSum rightSum ihl ihr =>
    have before := texts.left_of_append
    have behind := texts.right_of_append
    rw [List.map_append, Lowered.all_append,
      operand_concat (text_beside (leftSum.isText before) (rightSum.isText behind) texts)]
    exact (ihl before).append (ihr behind)

/-- A sum of terms that have operands has one, when there are texts between them. -/
theorem exists_operand (sum : SumOf terms e) (canonical : scope.LocalsCanonical) (texts : TextsBetween scope terms)
    (lowered : ∀ term ∈ terms, ∃ operand, term.operand scope = .done operand) :
    ∃ operand, e.operand scope = .done operand := by
  obtain ⟨operands, each⟩ := List.exists_forall₂ lowered
  have joins := sum.joins canonical texts
  rw [Lowered.all_map_eq_done_iff.mpr each] at joins
  exact joins.eq_done

end SumOf

/-- Terms that all are texts have texts between them. -/
theorem textsBetween_of_forall {terms : List Expression} (texts : ∀ term ∈ terms, term.IsText scope) :
    TextsBetween scope terms := by
  induction terms with
  | nil => exact .nil
  | cons term later ih =>
    obtain ⟨text, rest⟩ := List.forall_mem_cons.mp texts
    exact (ih rest).cons fun _ _ => .inl text

end Expression

open Expression (SumOf TextsBetween)

/-- Concatenations keep their meaning and have one form. When one side of a sum is a text, the sum is lowered to what is
appended, and that evaluates to the texts of both sides or to the fault of the first of them that has one, with and
without a context. Every operand that lowering builds is canonical at every depth, in faulty sources as well, and the
arguments in a program are such operands. Two ways to put parentheses into a sum are lowered alike, to the same operand
or with the same faults, when of any two neighbouring terms at least one is a text, all the more when all of them are;
and if the terms have operands, so has the sum. -/
theorem concatenations_canonical :
    (∀ left right : Operand, left.type = .str ∨ right.type = .str →
      (∀ span, left.plus span right = .done (left.append right)) ∧
        ∀ reach, (left.append right).eval reach = do
          let first ← left.eval reach
          let second ← right.eval reach
          return .str (first.display ++ second.display)) ∧
    (∀ operand : Operand, operand.Built → operand.Canonical) ∧
    (∀ (u : SourceUnit) qualifiedName p, u.lower qualifiedName = .ok p → ∀ instructions, p.HasBody instructions →
      ∀ i ∈ instructions, ∀ argument ∈ i.arguments, argument.1.Built) ∧
    ∀ (scope : Scope) terms e e', scope.Reached → SumOf terms e → SumOf terms e' → TextsBetween scope terms →
      e.operand scope = e'.operand scope ∧
        ((∀ term ∈ terms, ∃ operand, term.operand scope = .done operand) →
          ∃ operand, e.operand scope = .done operand) := by
  refine ⟨fun left right text => ⟨fun _ => Operand.plus_of_text text, fun reach => ?_⟩,
    fun _ => Operand.Built.canonical, fun _ _ _ lowered _ body => SourceUnit.arguments_built lowered body, ?_⟩
  · rw [Operand.eval_append, Operand.evalText, Operand.evalText]
    cases left.eval reach with
    | error fault => rfl
    | ok first => cases right.eval reach <;> rfl
  · intro scope terms e e' reached sum other texts
    have canonical := reached.localsCanonical
    exact ⟨(sum.joins canonical texts).unique (other.joins canonical texts), sum.exists_operand canonical texts⟩

namespace Address

/-- A route builder that writes one address in two ways. -/
def source : String :=
  "class Address extends RouteBuilder \x7b void configure() \x7b " ++
  "String host = getContext().resolvePropertyPlaceholders(\"\x7b\x7bhost\x7d\x7d\"); " ++
  "from(\"http:\" + (host + \"/\")).to((\"http:\" + host) + \"/\"); \x7d \x7d"

/-- The scope in which its method begins. -/
def start : Scope := { className := "Address", methods := ["configure"], place := .method, body := "configure" }

/-- The declaration of the local variable `host`. -/
def declaration : Statement :=
  .declare ⟨⟨["String"], ⟨56, 62⟩⟩, false⟩ ⟨"host", ⟨63, 67⟩⟩
    (some (.callOn (.call ⟨"getContext", ⟨70, 80⟩⟩ [] ⟨70, 82⟩) ⟨"resolvePropertyPlaceholders", ⟨83, 110⟩⟩
      [.literal (.str "\x7b\x7bhost\x7d\x7d") ⟨111, 121⟩] ⟨70, 122⟩))

/-- The scope in which the address is looked at. -/
def scope : Scope := { start with locals := (declaration.lower start).locals }

def scheme : Expression := .literal (.str "http:") ⟨129, 136⟩

def host : Expression := .name ⟨"host", ⟨140, 144⟩⟩

def slash : Expression := .literal (.str "/") ⟨147, 150⟩

/-- The address with its last two terms in parentheses. -/
def rightGrouped : Expression := .concat scheme (.concat host slash)

/-- The address with its first two terms in parentheses. -/
def leftGrouped : Expression := .concat (.concat scheme host) slash

theorem lowered :
    ∀ term ∈ [scheme, host, slash], ∃ operand, term.operand scope = .done operand ∧ operand.type = .str :=
  List.forall_mem_cons.mpr ⟨⟨_, rfl, rfl⟩, List.forall_mem_cons.mpr ⟨⟨_, rfl, rfl⟩,
    List.forall_mem_singleton.mpr ⟨_, rfl, rfl⟩⟩⟩

theorem texts : ∀ term ∈ [scheme, host, slash], term.IsText scope := by
  intro term member operand found
  obtain ⟨_, done, text⟩ := lowered term member
  rw [done] at found
  obtain rfl := Option.some.inj found
  exact text

end Address

theorem concatenations_canonical_address :
    ((Operand.const (.str "http:")).append (.placeholders (.const (.str "host")))).eval none =
        .error (.misused .noContext) ∧
    (∃ p instructions i argument, compile "Address" Address.source = .ok p ∧ p.HasBody instructions ∧
      i ∈ instructions ∧ argument ∈ i.arguments ∧ argument.1.Built ∧ argument.1.Canonical) ∧
    Address.scope.Reached ∧ (∀ term ∈ [Address.scheme, Address.host, Address.slash], term.IsText Address.scope) ∧
      ∃ operand, Address.rightGrouped.operand Address.scope = .done operand ∧
        Address.leftGrouped.operand Address.scope = .done operand := by
  obtain ⟨sound, canonical, programs, sums⟩ := concatenations_canonical
  have reached : Address.scope.Reached := .after Address.declaration (.start rfl)
  refine ⟨((sound _ _ (.inl rfl)).2 none).trans ?_, ?_, reached, Address.texts, ?_⟩
  · simp [Operand.eval, Operand.resolveText]
  · have lexed : Lexed.ofSource Address.source = _ := Lexed.ofSource_eq
      (Lexed.toList_append_eq (Lexed.toList_append_eq String.toList_ofList String.toList_ofList) String.toList_ofList)
    have given : ((compile "Address" Address.source).toOption.bind fun p =>
        (p.methods.get? "configure").bind fun instructions =>
          instructions.head?.bind fun i => i.arguments.head?).isSome = true := by
      rw [compile, lexed]
      decide +kernel
    obtain ⟨argument, found⟩ := Option.isSome_iff_exists.mp given
    obtain ⟨p, compiled, found⟩ := Option.bind_eq_some_iff.mp found
    obtain ⟨instructions, stored, found⟩ := Option.bind_eq_some_iff.mp found
    obtain ⟨i, first, found⟩ := Option.bind_eq_some_iff.mp found
    have compiled := Except.eq_ok_of_toOption compiled
    have member := List.mem_of_mem_head? first
    have listed := List.mem_of_mem_head? found
    obtain ⟨u, _, lowered⟩ := unit_of_compile_eq_ok compiled
    have built := programs u _ p lowered instructions (.inr ⟨_, stored⟩) i member argument listed
    exact ⟨p, instructions, i, argument, compiled, .inr ⟨_, stored⟩, member, listed, built, canonical _ built⟩
  · have right : SumOf ([Address.scheme] ++ ([Address.host] ++ [Address.slash])) Address.rightGrouped :=
      .plus (.term _) (.plus (.term _) (.term _))
    have left : SumOf (([Address.scheme] ++ [Address.host]) ++ [Address.slash]) Address.leftGrouped :=
      .plus (.plus (.term _) (.term _)) (.term _)
    obtain ⟨same, succeeds⟩ := sums _ _ _ _ reached right left (Expression.textsBetween_of_forall Address.texts)
    obtain ⟨operand, done⟩ := succeeds fun term member => (Address.lowered term member).imp fun _ => And.left
    exact ⟨operand, done, same.symm.trans done⟩

end RouteDepot.RouteClass
