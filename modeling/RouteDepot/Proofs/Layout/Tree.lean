import Mathlib.Data.List.Forall2
import RouteDepot.Proofs.Printing.Limits

/-! # The same tree in two places

Two syntax trees are aligned when they differ in spans only, and the spans at which faults of meaning are reported are
related. Types, parameters and modifiers are never reported, so only their texts count; imports and thrown exceptions
do not count at all.
-/

namespace RouteDepot.RouteClass

variable {R : Span → Span → Prop}

structure Ident.Aligned (R : Span → Span → Prop) (i j : Ident) : Prop where
  name : i.name = j.name
  spans : R i.span j.span

structure DottedName.Aligned (R : Span → Span → Prop) (n k : DottedName) : Prop where
  parts : n.parts = k.parts
  spans : R n.span k.span

theorem DottedName.Aligned.text_eq {n k : DottedName} (aligned : n.Aligned R k) : n.text = k.text :=
  congrArg (".".intercalate ·) aligned.parts

/-- The same expression in two places. -/
inductive Expression.Aligned (R : Span → Span → Prop) : Expression → Expression → Prop
  | literal {span span' : Span} (value : Literal) (spans : R span span') :
    Aligned R (.literal value span) (.literal value span')
  | name {i j : Ident} (idents : i.Aligned R j) : Aligned R (.name i) (.name j)
  | this {span span' : Span} (spans : R span span') : Aligned R (.this span) (.this span')
  | field {target target' : Expression} {i j : Ident} (targets : Aligned R target target') (members : i.Aligned R j)
    (spans : R (Expression.field target i).span (Expression.field target' j).span) :
    Aligned R (.field target i) (.field target' j)
  | call {i j : Ident} {args args' : List Expression} {span span' : Span} (callees : i.Aligned R j)
    (arguments : List.Forall₂ (Aligned R) args args') (spans : R span span') :
    Aligned R (.call i args span) (.call j args' span')
  | callOn {target target' : Expression} {i j : Ident} {args args' : List Expression} {span span' : Span}
    (targets : Aligned R target target') (callees : i.Aligned R j) (arguments : List.Forall₂ (Aligned R) args args')
    (spans : R span span') : Aligned R (.callOn target i args span) (.callOn target' j args' span')
  | new {n k : DottedName} {args args' : List Expression} {span span' : Span} (types : n.parts = k.parts)
    (arguments : List.Forall₂ (Aligned R) args args') (spans : R span span') :
    Aligned R (.new n args span) (.new k args' span')
  | concat {left right left' right' : Expression} (lefts : Aligned R left left') (rights : Aligned R right right')
    (spans : R (Expression.concat left right).span (Expression.concat left' right').span) :
    Aligned R (.concat left right) (.concat left' right')

theorem Expression.Aligned.spans {e e' : Expression} (aligned : e.Aligned R e') : R e.span e'.span := by
  cases aligned with
  | name idents => exact idents.spans
  | literal _ spans | this spans | field _ _ spans | call _ _ spans | callOn _ _ _ spans | new _ _ spans
  | concat _ _ spans => exact spans

/-- The same statement in two places. -/
inductive Statement.Aligned (R : Span → Span → Prop) : Statement → Statement → Prop
  | expression {value value' : Expression} (values : value.Aligned R value') :
    Aligned R (.expression value) (.expression value')
  | declare {type type' : TypeName} {i j : Ident} {value value' : Option Expression} (types : type.erase = type'.erase)
    (names : i.Aligned R j) (values : Option.Rel (Expression.Aligned R) value value') :
    Aligned R (.declare type i value) (.declare type' j value')
  | throw {value value' : Expression} {span span' : Span} (values : value.Aligned R value') (spans : R span span') :
    Aligned R (.throw value span) (.throw value' span')
  | return {span span' : Span} (spans : R span span') : Aligned R (.return span) (.return span')
  | block {body body' : List Statement} {span span' : Span} (bodies : List.Forall₂ (Aligned R) body body')
    (spans : R span span') : Aligned R (.block body span) (.block body' span')
  | empty : Aligned R .empty .empty

theorem Statement.Aligned.spans {s s' : Statement} (aligned : s.Aligned R s') : Option.Rel R s.span? s'.span? := by
  cases aligned with
  | expression values => exact .some values.spans
  | declare _ names => exact .some names.spans
  | throw _ spans | «return» spans | block _ spans => exact .some spans
  | empty => exact .none

structure Block.Aligned (R : Span → Span → Prop) (b b' : Block) : Prop where
  bodies : List.Forall₂ (Statement.Aligned R) b.body b'.body
  spans : R b.span b'.span

structure FieldDeclaration.Aligned (R : Span → Span → Prop) (f f' : FieldDeclaration) : Prop where
  types : f.type.erase = f'.type.erase
  names : f.name.Aligned R f'.name
  values : Option.Rel (Expression.Aligned R) f.value f'.value

structure ConstructorDeclaration.Aligned (R : Span → Span → Prop) (c c' : ConstructorDeclaration) : Prop where
  names : c.name.Aligned R c'.name
  parameters : c.parameters.map Parameter.erase = c'.parameters.map Parameter.erase
  bodies : c.body.Aligned R c'.body

structure MethodDeclaration.Aligned (R : Span → Span → Prop) (m m' : MethodDeclaration) : Prop where
  modifiers : m.modifiers.erase = m'.modifiers.erase
  results : m.result.map TypeName.erase = m'.result.map TypeName.erase
  names : m.name.Aligned R m'.name
  parameters : m.parameters.map Parameter.erase = m'.parameters.map Parameter.erase
  bodies : Option.Rel (Block.Aligned R) m.body m'.body

/-- The same member in two places. -/
inductive Member.Aligned (R : Span → Span → Prop) : Member → Member → Prop
  | field {f f' : FieldDeclaration} (fields : f.Aligned R f') : Aligned R (.field f) (.field f')
  | constructor {c c' : ConstructorDeclaration} (constructors : c.Aligned R c') :
    Aligned R (.constructor c) (.constructor c')
  | method {m m' : MethodDeclaration} (methods : m.Aligned R m') : Aligned R (.method m) (.method m')

structure ClassDeclaration.Aligned (R : Span → Span → Prop) (c c' : ClassDeclaration) : Prop where
  modifiers : c.modifiers.erase = c'.modifiers.erase
  names : c.name.Aligned R c'.name
  parents : Option.Rel (DottedName.Aligned R) c.parent c'.parent
  interfaces : List.Forall₂ (DottedName.Aligned R) c.interfaces c'.interfaces
  members : List.Forall₂ (Member.Aligned R) c.members c'.members

structure SourceUnit.Aligned (R : Span → Span → Prop) (u u' : SourceUnit) : Prop where
  packages : Option.Rel (DottedName.Aligned R) u.package u'.package
  classes : List.Forall₂ (ClassDeclaration.Aligned R) u.classes u'.classes

/-! ### Trees without spans -/

/-- Any two spans are related. -/
abbrev anySpans (_ _ : Span) : Prop := True

theorem Ident.aligned_erase (i : Ident) : i.Aligned anySpans i.erase := ⟨rfl, trivial⟩

theorem DottedName.aligned_erase (n : DottedName) : n.Aligned anySpans n.erase := ⟨rfl, trivial⟩

mutual

theorem Expression.aligned_erase (e : Expression) : e.Aligned anySpans e.erase := by
  cases e with
  | literal value span =>
    rw [Expression.erase]
    exact .literal value trivial
  | name i =>
    rw [Expression.erase]
    exact .name i.aligned_erase
  | this span =>
    rw [Expression.erase]
    exact .this trivial
  | field target member =>
    rw [Expression.erase]
    exact .field target.aligned_erase member.aligned_erase trivial
  | call callee args span =>
    rw [Expression.erase]
    exact .call callee.aligned_erase (Expression.aligned_eraseAll args) trivial
  | callOn target callee args span =>
    rw [Expression.erase]
    exact .callOn target.aligned_erase callee.aligned_erase (Expression.aligned_eraseAll args) trivial
  | new type args span =>
    rw [Expression.erase]
    exact .new rfl (Expression.aligned_eraseAll args) trivial
  | concat left right =>
    rw [Expression.erase]
    exact .concat left.aligned_erase right.aligned_erase trivial

theorem Expression.aligned_eraseAll (es : List Expression) :
    List.Forall₂ (Expression.Aligned anySpans) es (Expression.eraseAll es) := by
  cases es with
  | nil => exact .nil
  | cons e later =>
    rw [Expression.eraseAll]
    exact .cons e.aligned_erase (Expression.aligned_eraseAll later)

end

theorem Expression.aligned_map_erase (value : Option Expression) :
    Option.Rel (Expression.Aligned anySpans) value (value.map Expression.erase) := by
  cases value with
  | none => exact .none
  | some e => exact .some e.aligned_erase

mutual

theorem Statement.aligned_erase (s : Statement) : s.Aligned anySpans s.erase := by
  cases s with
  | expression value =>
    rw [Statement.erase]
    exact .expression value.aligned_erase
  | declare type name value =>
    rw [Statement.erase]
    exact .declare rfl name.aligned_erase (Expression.aligned_map_erase value)
  | throw value span =>
    rw [Statement.erase]
    exact .throw value.aligned_erase trivial
  | «return» span =>
    rw [Statement.erase]
    exact .return trivial
  | block body span =>
    rw [Statement.erase]
    exact .block (Statement.aligned_eraseAll body) trivial
  | empty =>
    rw [Statement.erase]
    exact .empty

theorem Statement.aligned_eraseAll (body : List Statement) :
    List.Forall₂ (Statement.Aligned anySpans) body (Statement.eraseAll body) := by
  cases body with
  | nil => exact .nil
  | cons s later =>
    rw [Statement.eraseAll]
    exact .cons s.aligned_erase (Statement.aligned_eraseAll later)

end

theorem Block.aligned_erase (b : Block) : b.Aligned anySpans b.erase := ⟨Statement.aligned_eraseAll b.body, trivial⟩

theorem Modifiers.erase_erase (m : Modifiers) : m.erase.erase = m.erase := by
  simp [Modifiers.erase, DottedName.erase]

theorem Parameter.map_erase_erase (parameters : List Parameter) :
    (parameters.map Parameter.erase).map Parameter.erase = parameters.map Parameter.erase := by
  rw [List.map_map]
  rfl

theorem Member.aligned_erase (m : Member) : m.Aligned anySpans m.erase := by
  cases m with
  | field f => exact .field ⟨rfl, f.name.aligned_erase, Expression.aligned_map_erase f.value⟩
  | constructor c =>
    exact .constructor ⟨c.name.aligned_erase, (Parameter.map_erase_erase c.parameters).symm, c.body.aligned_erase⟩
  | method m =>
    have results : m.result.map TypeName.erase = (m.result.map TypeName.erase).map TypeName.erase := by
      rw [Option.map_map]
      rfl
    refine .method ⟨m.modifiers.erase_erase.symm, results, m.name.aligned_erase,
      (Parameter.map_erase_erase m.parameters).symm, ?_⟩
    rw [MethodDeclaration.erase]
    cases m.body with
    | none => exact .none
    | some b => exact .some b.aligned_erase

theorem DottedName.aligned_map_erase (name : Option DottedName) :
    Option.Rel (DottedName.Aligned anySpans) name (name.map DottedName.erase) := by
  cases name with
  | none => exact .none
  | some n => exact .some n.aligned_erase

theorem ClassDeclaration.aligned_erase (c : ClassDeclaration) : c.Aligned anySpans c.erase where
  modifiers := c.modifiers.erase_erase.symm
  names := c.name.aligned_erase
  parents := DottedName.aligned_map_erase c.parent
  interfaces := List.forall₂_map_right_iff.mpr (List.forall₂_same.mpr fun n _ => n.aligned_erase)
  members := List.forall₂_map_right_iff.mpr (List.forall₂_same.mpr fun m _ => m.aligned_erase)

/-- A unit without its spans is the same unit in another place. -/
theorem SourceUnit.aligned_erase (u : SourceUnit) : u.Aligned anySpans u.erase where
  packages := DottedName.aligned_map_erase u.package
  classes := List.forall₂_map_right_iff.mpr (List.forall₂_same.mpr fun c _ => c.aligned_erase)

end RouteDepot.RouteClass
