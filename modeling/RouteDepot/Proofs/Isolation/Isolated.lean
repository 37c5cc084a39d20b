import RouteDepot.Proofs.Isolation.Framed
import RouteDepot.Proofs.Isolation.Pieces

/-! # Faulty statements do not touch each other

Where a source is one class with one method, its faults are those that each piece of the body has as the only one
there, in the same order and at the same tokens; and if there are none, the body has the statements of the pieces.
-/

namespace RouteDepot.RouteClass

/-- The only class of a unit has only a method, and its body has the given statements. -/
def SourceUnit.HasBody (u : SourceUnit) (statements : List Statement) : Prop :=
  ∃ c m b, u.classes = [c] ∧ c.members = [.method m] ∧ m.body = some b ∧ b.body = statements

/-- The tokens around the body of a method which is all of a class which is all of a source. -/
structure Frame where
  /-- The source with an empty body, spans apart. -/
  unit : SourceUnit
  /-- The tokens in front of the pieces of the body. -/
  head : List Token
  bodyClosing : Span
  classClosing : Span
  stop : Span
  wellFormed : unit.WellFormed
  empty : unit.HasBody []
  spelled : head.map (·.kind) ++ [.mark .braceClose, .mark .braceClose] = unit.print

namespace Frame

/-- The tokens of a source with given pieces as its body. -/
def source (f : Frame) (pieces : List Piece) : List Token :=
  f.head ++ (pieces.flatMap Piece.tokens ++ [⟨.mark .braceClose, f.bodyClosing⟩, ⟨.mark .braceClose, f.classClosing⟩])

/-- The unit that pieces form as a body, or the faults of the source. -/
def parse (f : Frame) (pieces : List Piece) : Except (List (Finding SyntaxFault)) SourceUnit :=
  SourceUnit.ofTokens (f.source pieces) f.stop

/-- The faults that are reported for pieces as a body. -/
def reported (f : Frame) (pieces : List Piece) : List (Finding SyntaxFault) :=
  match f.parse pieces with
  | .ok _ => []
  | .error faults => faults

end Frame

/-! ### One body -/

/-- The last tokens of a unit with an empty body are the braces. -/
theorem SourceUnit.print_eq_of_empty {u : SourceUnit} {c : ClassDeclaration} {m : MethodDeclaration} {b : Block}
    (single : u.classes = [c]) (only : c.members = [.method m])
    (bodied : m.body = some b) (empty : b.body = []) :
    u.print = u.printHead ++ (c.printHead ++ .mark .braceOpen :: (m.printHead ++ [.mark .braceOpen])) ++
      [.mark .braceClose, .mark .braceClose] := by
  simp [SourceUnit.print, SourceUnit.printHead, single, ClassDeclaration.print, ClassDeclaration.printHead, only,
    Member.print, MethodDeclaration.print, MethodDeclaration.printHead, bodied, Block.print, empty, enbrace,
    Statement.printAll]

/-- The tokens of a frame in front of the body are the heads of the source, the class and the method. -/
theorem Frame.exists_heads (f : Frame) : ∃ (c : ClassDeclaration) (m : MethodDeclaration),
    c.HeadWellFormed ∧ m.HeadWellFormed ∧ ∃ unitHead classHead methodHead classOpening bodyOpening,
      f.head = unitHead ++ (classHead ++ ⟨.mark .braceOpen, classOpening⟩ ::
        (methodHead ++ [⟨.mark .braceOpen, bodyOpening⟩])) ∧
      unitHead.map (·.kind) = f.unit.printHead ∧ classHead.map (·.kind) = c.printHead ∧
        methodHead.map (·.kind) = m.printHead := by
  obtain ⟨c, m, b, single, only, bodied, empty⟩ := f.empty
  obtain ⟨_, _, classes⟩ := f.wellFormed
  obtain ⟨modified, extended, implemented, members⟩ := classes c (single ▸ List.mem_singleton_self c)
  obtain ⟨modifiedMethod, resulting, typed, thrown, _⟩ := members _ (only ▸ List.mem_singleton_self _)
  have spelled := f.spelled
  rw [SourceUnit.print_eq_of_empty single only bodied empty] at spelled
  obtain ⟨unitHead, classTokens, split, spelledUnit, spelledTokens⟩ :=
    List.map_eq_append_iff.mp (List.append_cancel_right spelled)
  obtain ⟨classHead, opened, rfl, spelledClass, spelledOpened⟩ := List.map_eq_append_iff.mp spelledTokens
  obtain ⟨classOpening, methodTokens, rfl, spelledTokens'⟩ := tokens_eq_cons spelledOpened
  obtain ⟨methodHead, last, rfl, spelledMethod, spelledLast⟩ := List.map_eq_append_iff.mp spelledTokens'
  obtain ⟨bodyOpening, none, rfl, spelledNone⟩ := tokens_eq_cons spelledLast
  obtain rfl := List.map_eq_nil_iff.mp spelledNone
  exact ⟨c, m, ⟨modified, extended, implemented⟩, ⟨modifiedMethod, resulting, typed, thrown⟩, unitHead, classHead,
    methodHead, classOpening, bodyOpening, split, spelledUnit, spelledClass, spelledMethod⟩

namespace Frame

variable (f : Frame)

/-- The source of a body records the faults of its pieces and yields their statements. -/
theorem source_takes (pieces : List Piece) :
    Parser.Takes Parser.sourceUnit (f.source pieces) [] (pieces.flatMap Piece.faults)
      (·.HasBody (pieces.flatMap Piece.statements)) := by
  obtain ⟨c, m, wellFormedClass, wellFormedMethod, unitHead, classHead, methodHead, classOpening, bodyOpening, split,
    spelledUnit, spelledClass, spelledMethod⟩ := f.exists_heads
  have takesMethod := Parser.member_takes c.name.name wellFormedMethod spelledMethod
    (Parser.block_takes [⟨.mark .braceClose, f.classClosing⟩] pieces bodyOpening f.bodyClosing)
  have takesClass := Parser.class_takes wellFormedClass spelledClass classOpening f.classClosing
    (.of_printed (MethodDeclaration.printHead_eq_cons wellFormedMethod) spelledMethod) takesMethod
  have takesUnit := Parser.sourceUnit_takes f.wellFormed.1 f.wellFormed.2.1 spelledUnit
    (.of_printed (ClassDeclaration.printHead_eq_cons c) spelledClass) takesClass
  have same : f.source pieces = unitHead ++ (classHead ++ ⟨.mark .braceOpen, classOpening⟩ ::
      (methodHead ++ ⟨.mark .braceOpen, bodyOpening⟩ ::
        (pieces.flatMap Piece.tokens ++ [⟨.mark .braceClose, f.bodyClosing⟩]) ++
          [⟨.mark .braceClose, f.classClosing⟩])) := by
    simp [source, split]
  rw [same]
  apply takesUnit.mono
  rintro u ⟨c, single, _, only, m, b, rfl, bodied, body⟩
  exact ⟨c, m, b, single, only, bodied, body⟩

/-- The pieces of a body form a unit, unless one of them has a fault. -/
theorem parse_eq (pieces : List Piece) : ∃ u : SourceUnit, u.HasBody (pieces.flatMap Piece.statements) ∧
    f.parse pieces = if (pieces.flatMap Piece.faults).isEmpty then .ok u else .error (pieces.flatMap Piece.faults) := by
  obtain ⟨u, after, ran, moves, body⟩ :=
    f.source_takes pieces { ahead := f.source pieces, stop := f.stop } (List.append_nil _).symm
  refine ⟨u, body, ?_⟩
  have faults : after.faults = pieces.flatMap Piece.faults := moves.faults
  simp only [parse, SourceUnit.ofTokens, ran, faults]

theorem reported_eq (pieces : List Piece) : f.reported pieces = pieces.flatMap Piece.faults := by
  obtain ⟨u, _, parsed⟩ := f.parse_eq pieces
  rw [reported, parsed]
  by_cases none : (pieces.flatMap Piece.faults).isEmpty
  · rw [if_pos none]
    exact (List.isEmpty_iff.mp none).symm
  · rw [if_neg none]

/-- Pieces that are statements form a unit with these as its body. -/
theorem parse_statements {pieces : List Piece} {statements : List Statement}
    (formed : List.Forall₂ (fun p s => p.outcome = .ok s) pieces statements) :
    ∃ u, f.parse pieces = .ok u ∧ u.HasBody statements := by
  obtain ⟨u, body, parsed⟩ := f.parse_eq pieces
  rw [Piece.flatMap_faults formed, List.isEmpty_nil, if_pos rfl] at parsed
  rw [Piece.flatMap_statements formed] at body
  exact ⟨u, parsed, body⟩

/-- Recovery isolates the pieces of a body from each other. -/
structure Isolates : Prop where
  /-- A piece that is a statement on its own is that statement as the only one of the body. -/
  statement : ∀ (p : Piece) (s : Statement), p.outcome = .ok s → ∃ u, f.parse [p] = .ok u ∧ u.HasBody [s]
  /-- A piece that is no statement on its own is reported with exactly one fault as the only one of the body. -/
  fault : ∀ (p : Piece) (fault : Finding SyntaxFault), p.outcome = .error fault → f.parse [p] = .error [fault]
  /-- Pieces together are reported with the faults that each is reported with alone, in order. -/
  faults : ∀ pieces : List Piece, f.reported pieces = pieces.flatMap fun p => f.reported [p]
  /-- Pieces that all are statements on their own are these statements of the body together, in order. -/
  statements : ∀ (pieces : List Piece) (statements : List Statement),
    List.Forall₂ (fun p s => p.outcome = .ok s) pieces statements →
      ∃ u, f.parse pieces = .ok u ∧ u.HasBody statements

theorem isolates : f.Isolates where
  statement _ _ formed := f.parse_statements (.cons formed .nil)
  fault p fault failed := by
    obtain ⟨_, _, parsed⟩ := f.parse_eq [p]
    simpa [Piece.faults, failed] using parsed
  faults pieces := by
    rw [reported_eq]
    exact List.flatMap_congr fun p _ => by rw [reported_eq, List.flatMap_singleton]
  statements _ _ := f.parse_statements

/-! ### A class with one method -/

/-- A class with a method to put pieces into. -/
def greeter : Frame where
  unit := ⟨none, [], [⟨{}, ⟨"Greeter", ⟨0, 0⟩⟩, none, [],
    [.method ⟨{}, none, ⟨"greet", ⟨0, 0⟩⟩, [], [], some ⟨[], ⟨0, 0⟩⟩⟩], ⟨0, 0⟩⟩]⟩
  head := [⟨.keyword .classKw, ⟨0, 5⟩⟩, ⟨.ident "Greeter", ⟨6, 13⟩⟩, ⟨.mark .braceOpen, ⟨14, 15⟩⟩,
    ⟨.keyword .voidKw, ⟨16, 20⟩⟩, ⟨.ident "greet", ⟨21, 26⟩⟩, ⟨.mark .parenOpen, ⟨26, 27⟩⟩,
    ⟨.mark .parenClose, ⟨27, 28⟩⟩, ⟨.mark .braceOpen, ⟨29, 30⟩⟩]
  bodyClosing := ⟨55, 56⟩
  classClosing := ⟨57, 58⟩
  stop := ⟨58, 58⟩
  wellFormed := by
    simp [SourceUnit.WellFormed, ClassDeclaration.WellFormed, Member.WellFormed, Modifiers.WellFormed,
      Block.WellFormed, Statement.AllWellFormed]
  empty := ⟨_, _, _, rfl, rfl, rfl, rfl⟩
  spelled := rfl

/-- A piece `return 1;` -/
def returning : Piece := ⟨[⟨.keyword .returnKw, ⟨31, 37⟩⟩, ⟨.int 1, ⟨38, 39⟩⟩], ⟨39, 40⟩, by decide⟩

/-- A piece `return;` -/
def leaving : Piece := ⟨[⟨.keyword .returnKw, ⟨41, 47⟩⟩], ⟨47, 48⟩, by decide⟩

/-- A piece `log(;` -/
def unclosed : Piece := ⟨[⟨.ident "log", ⟨49, 52⟩⟩, ⟨.mark .parenOpen, ⟨52, 53⟩⟩], ⟨53, 54⟩, by decide⟩

/-- A good piece between two bad ones is not reported, and is the statement of a body on its own. -/
theorem greeter_isolates :
    greeter.reported [returning, leaving, unclosed] =
      [⟨⟨38, 39⟩, .returnValue⟩, ⟨⟨53, 54⟩, .expected "expression" (some (.mark .semicolon))⟩] ∧
    ∃ u, greeter.parse [leaving] = .ok u ∧ u.HasBody [.return ⟨41, 47⟩] := by
  refine ⟨?_, greeter.isolates.statement leaving _ rfl⟩
  rw [greeter.isolates.faults]
  decide +kernel

end Frame

end RouteDepot.RouteClass
