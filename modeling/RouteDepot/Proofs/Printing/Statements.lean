import RouteDepot.Proofs.Printing.Expressions

/-! # Reading statements

A statement is told from its first tokens: a declaration begins with a type and a name, which no printed expression
does. The statements of a block are read one after another, each with its own count of links; how many levels may be
opened carries the statements and blocks inside.
-/

namespace RouteDepot.RouteClass.Parser

/-! ### Declarations and expressions -/

/-- Tokens behind an identifier that tell it from the beginning of a declaration. -/
def EndsName (rest : List TokenKind) : Prop :=
  ∀ name tokens, tokens.map Token.kind = .ident name :: rest → startsWithType tokens = false

theorem endsName_mark {sign : Mark} (notDot : sign ≠ .dot) (notBracket : sign ≠ .bracketOpen) (rest : List TokenKind) :
    EndsName (.mark sign :: rest) := by
  intro name tokens spelled
  obtain ⟨_, _, rfl, later⟩ := tokens_eq_cons spelled
  obtain ⟨_, _, rfl, _⟩ := tokens_eq_cons later
  cases sign <;> first | rfl | contradiction

theorem EndsName.dot {rest : List TokenKind} (ends : EndsName rest) (name : String) :
    EndsName (.mark .dot :: .ident name :: rest) := by
  intro first tokens spelled
  obtain ⟨_, _, rfl, later⟩ := tokens_eq_cons spelled
  obtain ⟨_, tail, rfl, last⟩ := tokens_eq_cons later
  rw [startsWithType]
  exact ends name tail last

theorem startsWithType_of_not_ident {kind : TokenKind} (differs : ∀ name, kind ≠ .ident name) {tokens : List Token}
    {later : List TokenKind} (spelled : tokens.map Token.kind = kind :: later) : startsWithType tokens = false := by
  obtain ⟨_, _, rfl, _⟩ := tokens_eq_cons spelled
  cases kind with
  | ident name => exact absurd rfl (differs name)
  | str | char | int | keyword | mark => rfl

/-- No printed expression begins with a type and a name; the induction is along the receivers and left terms. -/
theorem startsWithType_expression (e : Expression) {rest : List TokenKind} (ends : EndsName rest) {tokens : List Token}
    (spelled : tokens.map Token.kind = e.print ++ rest) : startsWithType tokens = false := by
  match e with
  | .literal value _ =>
    refine startsWithType_of_not_ident ?_ spelled
    rcases value with _ | _ | _ | (_ | _) | _ <;> simp [Literal.print]
  | .name ident => exact ends ident.name tokens spelled
  | .this _ | .new .. => exact startsWithType_of_not_ident (by simp) spelled
  | .call callee _ _ => exact endsName_mark (by simp) (by simp) _ callee.name tokens spelled
  | .field target member =>
    rw [Expression.print, Expression.enclose] at spelled
    split at spelled
    · exact startsWithType_of_not_ident (by simp) spelled
    · exact startsWithType_expression target (ends.dot member.name) (by simpa using spelled)
  | .callOn target callee _ _ =>
    rw [Expression.print, Expression.enclose] at spelled
    split at spelled
    · exact startsWithType_of_not_ident (by simp) spelled
    · rw [List.append_assoc] at spelled
      exact startsWithType_expression target ((endsName_mark (by simp) (by simp) _).dot callee.name) spelled
  | .concat left _ =>
    rw [Expression.print, List.append_assoc] at spelled
    exact startsWithType_expression left (endsName_mark (by simp) (by simp) _) spelled

/-- A printed type and a name begin a declaration. -/
theorem startsWithType_type {t : TypeName} (wellFormed : t.WellFormed) {name : String} {rest : List TokenKind}
    {tokens : List Token} (spelled : tokens.map Token.kind = t.print ++ .ident name :: rest) :
    startsWithType tokens = true := by
  rcases t with ⟨⟨parts, _⟩, isArray⟩
  rcases parts with _ | ⟨first, later⟩
  · exact absurd rfl wellFormed
  simp only [TypeName.print, DottedName.print, List.map_cons, printJoined, List.flatMap_map] at spelled
  clear wellFormed
  induction later generalizing first tokens with
  | nil =>
    obtain ⟨_, _, rfl, second⟩ := tokens_eq_cons spelled
    cases isArray with
    | false =>
      obtain ⟨_, _, rfl, _⟩ := tokens_eq_cons second
      rfl
    | true =>
      obtain ⟨_, _, rfl, third⟩ := tokens_eq_cons second
      obtain ⟨_, _, rfl, _⟩ := tokens_eq_cons third
      rfl
  | cons part later ih =>
    obtain ⟨_, _, rfl, second⟩ := tokens_eq_cons spelled
    obtain ⟨_, _, rfl, third⟩ := tokens_eq_cons second
    rw [startsWithType]
    exact ih part third

theorem startsDeclaration_type {t : TypeName} (wellFormed : t.WellFormed) {name : String} {rest : List TokenKind}
    {tokens : List Token} (spelled : tokens.map Token.kind = t.print ++ .ident name :: rest) :
    startsDeclaration tokens = true := by
  unfold startsDeclaration
  split
  · rfl
  · exact startsWithType_type wellFormed spelled

theorem startsDeclaration_expression {e : Expression} {rest : List TokenKind} (ends : EndsName rest)
    {tokens : List Token} (spelled : tokens.map Token.kind = e.print ++ rest) : startsDeclaration tokens = false := by
  unfold startsDeclaration
  split
  · obtain ⟨kind, later, printed, begins⟩ := e.print_eq_cons
    rw [printed] at spelled
    rw [← (List.cons.inj spelled).1] at begins
    cases begins
  · exact startsWithType_expression e ends spelled

/-! ### Statements -/

/-- A parser reads the blocks that open a number of levels at most. -/
def ReadsBlocksTo (room : Nat) (nestedBlock : Parser Block) : Prop :=
  ∀ b : Block, b.WellFormed → b.depth ≤ room → b.mostLinks ≤ linkLimit →
    Reads false nestedBlock b.print 0 Anything (·.erase = b.erase)

section Levels

variable {nested : Parser Expression} {nestedBlock : Parser Block} {room : Nat}

theorem ReadsTo.initialValue_reads (reads : ReadsTo room nested) {value : Option Expression}
    (wellFormed : ∀ e ∈ value, e.WellFormed) (shallow : ∀ e ∈ value, e.depth ≤ room) :
    Reads true (initialValue nested) (printValue value) ((value.map Expression.links).getD 0)
      (Avoids [.equal, .dot, .plus, .parenOpen]) (fun r => r.map Expression.erase = value.map Expression.erase) := by
  cases value with
  | none => exact .accept_false (fun _ ends => ends .equal List.mem_cons_self) (.pure rfl)
  | some e =>
    have readsValue := reads e (wellFormed e rfl) (shallow e rfl)
    apply Passes.accept_true
    apply (readsValue.mono (fun _ ends => ends.of_subset (by simp)) fun _ => id).bind_done
    intro read same
    apply Passes.pure
    simp only [Option.map_some, same]

theorem ReadsTo.localDeclaration_reads (reads : ReadsTo room nested) {type : TypeName}
    {value : Option Expression} (name : Ident) (named : type.WellFormed) (wellFormed : ∀ e ∈ value, e.WellFormed)
    (shallow : ∀ e ∈ value, e.depth ≤ room) :
    Reads true (localDeclaration nested) (Statement.declare type name value).print
      ((value.map Expression.links).getD 0) Anything (·.erase = (Statement.declare type name value).erase) := by
  have readsValue := reads.initialValue_reads wellFormed shallow
  rw [Statement.print, List.append_assoc]
  refine .accept_false ?_ (.bind (typeName_reads named) ?_ ?_)
  · intro rest _
    obtain ⟨first, later, printed⟩ := type.print_eq_cons named
    simp [printed]
  · intro type' sameType
    apply Passes.ident
    intro name' sameName
    refine readsValue.bind_rest ?_ ?_
    · intro value' sameValue
      apply Passes.expect
      intro semicolon
      apply Passes.pure
      simp only [Statement.erase, Ident.erase, sameType, sameName, sameValue]
    · intro rest _
      simp [Avoids]
  · intro rest _
    simp [Avoids]

theorem ReadsTo.expression_then_semicolon (reads : ReadsTo room nested) {e : Expression} (wellFormed : e.WellFormed)
    (shallow : e.depth ≤ room) {α : Type} {next : Expression → Span → Parser α} {meant : α → Prop}
    (later : ∀ read, read.erase = e.erase → ∀ span, Reads true (next read span) [] 0 Anything meant) :
    Reads true (do let read ← nested; let span ← expect (.mark .semicolon) "';'"; next read span)
      (e.print ++ [.mark .semicolon]) e.links Anything meant := by
  refine (reads e wellFormed shallow).bind_rest ?_ ?_
  · intro read same
    exact .expect (later read same)
  · intro rest _
    simp [Avoids]

/-- The parser of statements reads what opens no more levels than it may, with no more links than it may count. -/
theorem statement_reads (reads : ReadsTo room nested) (readsBlocks : ReadsBlocksTo room nestedBlock) {s : Statement}
    (wellFormed : s.WellFormed) (shallow : s.depth ≤ room) (few : s.mostLinks ≤ linkLimit) :
    Reads false (statement nested nestedBlock) s.print 0 Anything (·.erase = s.erase) := by
  cases s with
  | empty =>
    apply Passes.resetLinks_uncounted
    apply Passes.next
    intro c head
    rw [head]
    apply Passes.skip
    exact .pure rfl
  | block body span =>
    have readsBody := readsBlocks ⟨body, span⟩ wellFormed shallow few
    apply Passes.resetLinks_uncounted
    rw [Statement.print]
    apply Passes.next
    intro c head
    rw [head]
    apply readsBody.bind_done
    intro read same
    apply Passes.pure
    simp only [Statement.erase, (Block.mk.inj same).1]
  | «return» span =>
    apply Passes.resetLinks_uncounted
    apply Passes.next
    intro c head
    rw [head]
    apply Passes.get
    intro here _ _ _
    apply Passes.skip
    apply Passes.accept_true
    exact .pure rfl
  | throw value span =>
    refine .resetLinks ?_ few
    rw [Statement.print]
    apply Passes.next
    intro c head
    rw [head]
    apply Passes.get
    intro here _ _ _
    apply Passes.skip
    apply reads.expression_then_semicolon wellFormed shallow
    intro read same semicolon
    apply Passes.pure
    simp only [Statement.erase, same]
  | declare type name value =>
    have readsDeclaration := reads.localDeclaration_reads name wellFormed.1 wellFormed.2
      (fun e present => by rwa [present] at shallow)
    refine .resetLinks ?_ few
    apply Passes.get
    intro c rest facing _
    obtain ⟨first, later, printed⟩ := type.print_eq_cons wellFormed.1
    have head : c.kinds.head? = some (.ident first) := by simp [facing, Statement.print, printed]
    rw [Cursor.next?_eq, head]
    apply Passes.get
    intro c rest facing _
    rw [Statement.print, List.append_assoc, List.append_assoc, List.cons_append] at facing
    rw [if_pos (startsDeclaration_type wellFormed.1 facing)]
    exact readsDeclaration
  | expression value =>
    refine .resetLinks ?_ few
    apply Passes.get
    intro c rest facing _
    obtain ⟨kind, later, printed, begins⟩ := value.print_eq_cons
    have head : c.kinds.head? = some kind := by simp [facing, Statement.print, printed]
    rw [Cursor.next?_eq, head]
    split
    case h_5 =>
      apply Passes.get
      intro c rest facing _
      rw [Statement.print, List.append_assoc] at facing
      rw [startsDeclaration_expression (endsName_mark (by simp) (by simp) rest) facing]
      apply reads.expression_then_semicolon wellFormed shallow
      intro read same semicolon
      apply Passes.pure
      simp only [Statement.erase, same]
    -- The other statements begin with what no expression begins with.
    all_goals
      next same =>
        rw [Option.some.inj same] at begins
        cases begins

/-! ### Blocks -/

/-- Tokens that begin with the brace that ends a body. -/
def EndsBody (rest : List TokenKind) : Prop := rest.head? = some (.mark .braceClose)

theorem bodyEnds_true {α : Type} {counted : Bool} {next : Bool → Parser α} {meant : α → Prop}
    (later : Reads counted (next true) [] 0 EndsBody meant) :
    Reads counted (bodyEnds >>= next) [] 0 EndsBody meant := by
  rw [bodyEnds, bind_assoc]
  apply Passes.get
  intro c rest facing ends
  rw [Cursor.next?_eq, facing, List.nil_append, ends]
  exact later

theorem bodyEnds_false {α : Type} {counted : Bool} {next : Bool → Parser α} {kind : TokenKind}
    {printed : List TokenKind} {links : Nat} {follows : List TokenKind → Prop} {meant : α → Prop}
    (continues : kind ≠ .mark .braceClose) (later : Reads counted (next false) (kind :: printed) links follows meant) :
    Reads counted (bodyEnds >>= next) (kind :: printed) links follows meant := by
  rw [bodyEnds, bind_assoc]
  apply Passes.next
  intro c head
  rw [head]
  split
  · contradiction
  · next closing => exact absurd (Option.some.inj closing) continues
  · exact later

theorem statement_print_ne_nil (s : Statement) : s.print ≠ [] := by
  cases s <;> simp [Statement.print, enbrace]

theorem statement_print_eq_cons {s : Statement} (wellFormed : s.WellFormed) :
    ∃ kind later, s.print = kind :: later ∧ kind ≠ .mark .braceClose := by
  cases s with
  | expression value =>
    obtain ⟨kind, later, printed, begins⟩ := value.print_eq_cons
    exact ⟨kind, _, by rw [Statement.print, printed, List.cons_append], by rintro rfl; cases begins⟩
  | declare type name value =>
    obtain ⟨first, later, printed⟩ := type.print_eq_cons wellFormed.1
    exact ⟨_, _, by rw [Statement.print, printed, List.cons_append, List.cons_append], by simp⟩
  | throw | «return» | block | empty => exact ⟨_, _, rfl, by simp⟩

/-- The statements of a body are read one after another, each with its own count of links. -/
theorem body_reads (reads : ReadsTo room nested) (readsBlocks : ReadsBlocksTo room nestedBlock)
    {body : List Statement} (wellFormed : Statement.AllWellFormed body) (shallow : Statement.depthAll body ≤ room)
    (few : Statement.mostLinksAll body ≤ linkLimit) :
    Reads false (iterate (bodyStatement nested nestedBlock) []) (Statement.printAll body) 0 EndsBody
      (Statement.eraseAll · = Statement.eraseAll body) := by
  rw [Statement.printAll_eq_flatMap]
  refine (Passes.collect Anything (fun _ => 0) (fun s read => read.erase = s.erase) ?_ ?_ statement_print_ne_nil
    (fun _ _ => trivial) (fun _ _ => trivial) (by simp)).mono (fun _ => id) ?_
  · intro s member done
    have shallowStatement := Nat.le_trans (Statement.depth_le_depthAll member) shallow
    have fewLinks := Nat.le_trans (Statement.mostLinks_le_mostLinksAll member) few
    have readsStatement := statement_reads reads readsBlocks (wellFormed.of_mem member) shallowStatement fewLinks
    obtain ⟨kind, later, printed, continues⟩ := statement_print_eq_cons (wellFormed.of_mem member)
    rw [printed] at readsStatement ⊢
    exact bodyEnds_false continues readsStatement.recover_append
  · intro done
    exact bodyEnds_true (.pure rfl)
  · rintro _ ⟨read, rfl, same⟩
    rw [Statement.eraseAll_eq_map, Statement.eraseAll_eq_map, ← map_eq_of_forall₂ same]

theorem braced_reads (reads : ReadsTo room nested) (readsBlocks : ReadsBlocksTo room nestedBlock) :
    ReadsBlocksTo (room + 1) (braced nested nestedBlock) := by
  intro b wellFormed shallow few
  rw [Block.print, enbrace]
  have readsBody := body_reads reads readsBlocks wellFormed (Nat.le_of_succ_le_succ shallow) few
  apply Passes.expect
  intro opening
  refine readsBody.bind ?_ (fun _ _ => rfl)
  intro body same
  apply Passes.expect
  intro closing
  apply Passes.pure
  simp only [Block.erase, same]

end Levels

/-- The parser of blocks reads what opens no more levels than it may. -/
theorem block_readsBlocksTo (room : Nat) : ReadsBlocksTo room (block room) := by
  induction room with
  | zero => exact fun _ _ shallow => absurd shallow (Nat.not_succ_le_zero _)
  | succ room ih => exact braced_reads (expression_readsTo room) ih

end RouteDepot.RouteClass.Parser
