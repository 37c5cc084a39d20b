import Mathlib.Algebra.GroupWithZero.Nat
import RouteDepot.Proofs.Printing.Printer
import RouteDepot.RouteClass.Parsing.Declaration

/-! # Trees that can be printed and read back

Two trees are the same up to spans when erasing their spans makes them equal. A tree is well formed when its dotted
names have parts, a star stands only at the end of an import, and constructors are named like their class. Blocks and
expressions are nested as deeply as the printed tree opens them, and every dot and plus of a statement is a link.
-/

namespace RouteDepot.RouteClass

/-! ### Trees without spans -/

def Ident.erase (i : Ident) : Ident := { i with span := ⟨0, 0⟩ }

def DottedName.erase (n : DottedName) : DottedName := { n with span := ⟨0, 0⟩ }

def Modifiers.erase (m : Modifiers) : Modifiers := { m with annotations := m.annotations.map DottedName.erase }

def TypeName.erase (t : TypeName) : TypeName := { t with name := t.name.erase }

def Parameter.erase (p : Parameter) : Parameter := ⟨p.type.erase, p.name.erase⟩

namespace Expression

mutual

def erase : Expression → Expression
  | literal value _ => literal value ⟨0, 0⟩
  | name ident => name ident.erase
  | this _ => this ⟨0, 0⟩
  | field target member => field target.erase member.erase
  | call callee args _ => call callee.erase (eraseAll args) ⟨0, 0⟩
  | callOn target callee args _ => callOn target.erase callee.erase (eraseAll args) ⟨0, 0⟩
  | new type args _ => new type.erase (eraseAll args) ⟨0, 0⟩
  | concat left right => concat left.erase right.erase

/-- Every expression of a list without spans. -/
def eraseAll : List Expression → List Expression
  | [] => []
  | e :: later => e.erase :: eraseAll later

end

end Expression

namespace Statement

mutual

def erase : Statement → Statement
  | expression value => expression value.erase
  | declare type name value => declare type.erase name.erase (value.map Expression.erase)
  | throw value _ => throw value.erase ⟨0, 0⟩
  | .return _ => .return ⟨0, 0⟩
  | block body _ => block (eraseAll body) ⟨0, 0⟩
  | empty => empty

/-- Every statement of a list without spans. -/
def eraseAll : List Statement → List Statement
  | [] => []
  | s :: later => s.erase :: eraseAll later

end

end Statement

def Block.erase (b : Block) : Block := ⟨Statement.eraseAll b.body, ⟨0, 0⟩⟩

def FieldDeclaration.erase (f : FieldDeclaration) : FieldDeclaration :=
  ⟨f.modifiers.erase, f.type.erase, f.name.erase, f.value.map Expression.erase⟩

def ConstructorDeclaration.erase (c : ConstructorDeclaration) : ConstructorDeclaration :=
  ⟨c.modifiers.erase, c.name.erase, c.parameters.map Parameter.erase, c.body.erase⟩

def MethodDeclaration.erase (m : MethodDeclaration) : MethodDeclaration :=
  ⟨m.modifiers.erase, m.result.map TypeName.erase, m.name.erase, m.parameters.map Parameter.erase,
    m.throws.map DottedName.erase, m.body.map Block.erase⟩

def Member.erase : Member → Member
  | field f => field f.erase
  | constructor c => constructor c.erase
  | method m => method m.erase

def ClassDeclaration.erase (c : ClassDeclaration) : ClassDeclaration :=
  ⟨c.modifiers.erase, c.name.erase, c.parent.map DottedName.erase, c.interfaces.map DottedName.erase,
    c.members.map Member.erase, ⟨0, 0⟩⟩

def SourceUnit.erase (u : SourceUnit) : SourceUnit :=
  ⟨u.package.map DottedName.erase, u.imports.map DottedName.erase, u.classes.map ClassDeclaration.erase⟩

/-! ### Well formed trees -/

def DottedName.WellFormed (n : DottedName) : Prop := n.parts ≠ []

/-- An import has parts, and a star is only the last of at least two. -/
def DottedName.IsImport (n : DottedName) : Prop :=
  n.parts ≠ [] ∧ "*" ∉ n.parts.dropLast ∧ n.parts ≠ ["*"]

def Modifiers.WellFormed (m : Modifiers) : Prop := ∀ name ∈ m.annotations, name.WellFormed

def TypeName.WellFormed (t : TypeName) : Prop := t.name.WellFormed

def Parameter.WellFormed (p : Parameter) : Prop := p.type.WellFormed

namespace Expression

mutual

def WellFormed : Expression → Prop
  | literal .. | name _ | this _ => True
  | field target _ => target.WellFormed
  | call _ args _ => AllWellFormed args
  | callOn target _ args _ => target.WellFormed ∧ AllWellFormed args
  | new type args _ => type.WellFormed ∧ AllWellFormed args
  | concat left right => left.WellFormed ∧ right.WellFormed

/-- Every expression of a list is well formed. -/
def AllWellFormed : List Expression → Prop
  | [] => True
  | e :: later => e.WellFormed ∧ AllWellFormed later

end

end Expression

namespace Statement

mutual

def WellFormed : Statement → Prop
  | expression value | throw value _ => value.WellFormed
  | declare type _ value => type.WellFormed ∧ ∀ e ∈ value, e.WellFormed
  | .return _ | empty => True
  | block body _ => AllWellFormed body

/-- Every statement of a list is well formed. -/
def AllWellFormed : List Statement → Prop
  | [] => True
  | s :: later => s.WellFormed ∧ AllWellFormed later

end

end Statement

def Block.WellFormed (b : Block) : Prop := Statement.AllWellFormed b.body

/-- Well formed members of the class with a given name. -/
def Member.WellFormed (className : String) : Member → Prop
  | field f => f.modifiers.WellFormed ∧ f.type.WellFormed ∧ ∀ e ∈ f.value, e.WellFormed
  | constructor c =>
    c.modifiers.WellFormed ∧ c.name.name = className ∧ (∀ p ∈ c.parameters, p.WellFormed) ∧ c.body.WellFormed
  | method m =>
    m.modifiers.WellFormed ∧ (∀ t ∈ m.result, t.WellFormed) ∧ (∀ p ∈ m.parameters, p.WellFormed) ∧
      (∀ name ∈ m.throws, name.WellFormed) ∧ ∀ b ∈ m.body, b.WellFormed

def ClassDeclaration.WellFormed (c : ClassDeclaration) : Prop :=
  c.modifiers.WellFormed ∧ (∀ name ∈ c.parent, name.WellFormed) ∧ (∀ name ∈ c.interfaces, name.WellFormed) ∧
    ∀ m ∈ c.members, m.WellFormed c.name.name

def SourceUnit.WellFormed (u : SourceUnit) : Prop :=
  (∀ name ∈ u.package, name.WellFormed) ∧ (∀ name ∈ u.imports, name.IsImport) ∧ ∀ c ∈ u.classes, c.WellFormed

/-! ### Nesting and links -/

namespace Expression

mutual

/-- How many levels of expressions are opened inside a printed expression, its parentheses included. -/
def nesting : Expression → Nat
  | literal .. | name _ | this _ => 0
  | field target _ => target.nesting + target.isSum.toNat
  | call _ args _ | new _ args _ => depthAll args
  | callOn target _ args _ => max (target.nesting + target.isSum.toNat) (depthAll args)
  | concat left right => max left.nesting (right.nesting + right.isSum.toNat)

/-- How many levels expressions open between them, themselves included. -/
def depthAll : List Expression → Nat
  | [] => 0
  | e :: later => max (e.nesting + 1) (depthAll later)

end

/-- How many levels of expressions a printed expression opens, itself included. -/
def depth (e : Expression) : Nat := e.nesting + 1

mutual

/-- The dots and pluses of an expression; the dots of a type name do not count. -/
def links : Expression → Nat
  | literal .. | name _ | this _ => 0
  | field target _ => target.links + 1
  | call _ args _ | new _ args _ => linksAll args
  | callOn target _ args _ => target.links + (linksAll args + 1)
  | concat left right => left.links + (right.links + 1)

/-- The dots and pluses of a list of expressions. -/
def linksAll : List Expression → Nat
  | [] => 0
  | e :: later => e.links + linksAll later

end

/-! ### Lists of expressions -/

theorem printAll_eq_map (list : List Expression) : printAll list = list.map print := by
  induction list with
  | nil => rfl
  | cons e later ih => rw [printAll, ih, List.map_cons]

theorem eraseAll_eq_map (list : List Expression) : eraseAll list = list.map erase := by
  induction list with
  | nil => rfl
  | cons e later ih => rw [eraseAll, ih, List.map_cons]

theorem linksAll_eq_sum (list : List Expression) : linksAll list = (list.map links).sum := by
  induction list with
  | nil => rfl
  | cons e later ih => rw [linksAll, ih, List.map_cons, List.sum_cons]

theorem AllWellFormed.of_mem {list : List Expression} (wellFormed : AllWellFormed list) {e : Expression}
    (member : e ∈ list) : e.WellFormed := by
  induction member with
  | head => exact wellFormed.1
  | tail _ _ ih => exact ih wellFormed.2

theorem depth_le_depthAll {list : List Expression} {e : Expression} (member : e ∈ list) : e.depth ≤ depthAll list := by
  induction member with
  | head => exact Nat.le_max_left _ _
  | tail _ _ ih => exact Nat.le_trans ih (Nat.le_max_right _ _)

end Expression

namespace Statement

mutual

/-- How many levels of blocks and expressions a statement opens. -/
def depth : Statement → Nat
  | expression value | throw value _ => value.depth
  | declare _ _ value => (value.map Expression.depth).getD 0
  | .return _ | empty => 0
  | block body _ => depthAll body + 1

/-- How many levels of blocks and expressions statements open. -/
def depthAll : List Statement → Nat
  | [] => 0
  | s :: later => max s.depth (depthAll later)

end

mutual

/-- The most links of a statement and of those inside it. -/
def mostLinks : Statement → Nat
  | expression value | throw value _ => value.links
  | declare _ _ value => (value.map Expression.links).getD 0
  | .return _ | empty => 0
  | block body _ => mostLinksAll body

/-- The most links of any of the statements and of those inside them. -/
def mostLinksAll : List Statement → Nat
  | [] => 0
  | s :: later => max s.mostLinks (mostLinksAll later)

end

/-! ### Lists of statements -/

theorem printAll_eq_flatMap (list : List Statement) : printAll list = list.flatMap print := by
  induction list with
  | nil => rfl
  | cons s later ih => rw [printAll, ih, List.flatMap_cons]

theorem eraseAll_eq_map (list : List Statement) : eraseAll list = list.map erase := by
  induction list with
  | nil => rfl
  | cons s later ih => rw [eraseAll, ih, List.map_cons]

theorem AllWellFormed.of_mem {list : List Statement} (wellFormed : AllWellFormed list) {s : Statement}
    (member : s ∈ list) : s.WellFormed := by
  induction member with
  | head => exact wellFormed.1
  | tail _ _ ih => exact ih wellFormed.2

theorem depth_le_depthAll {list : List Statement} {s : Statement} (member : s ∈ list) : s.depth ≤ depthAll list := by
  induction member with
  | head => exact Nat.le_max_left _ _
  | tail _ _ ih => exact Nat.le_trans ih (Nat.le_max_right _ _)

theorem mostLinks_le_mostLinksAll {list : List Statement} {s : Statement} (member : s ∈ list) :
    s.mostLinks ≤ mostLinksAll list := by
  induction member with
  | head => exact Nat.le_max_left _ _
  | tail _ _ ih => exact Nat.le_trans ih (Nat.le_max_right _ _)

end Statement

/-- How many levels of blocks and expressions a block opens, itself included. -/
def Block.depth (b : Block) : Nat := Statement.depthAll b.body + 1

/-- The most links of any statement of a block. -/
def Block.mostLinks (b : Block) : Nat := Statement.mostLinksAll b.body

/-- A block opens no more levels and its statements have no more links than a parser allows. -/
def Block.WithinLimits (b : Block) : Prop := b.depth ≤ Parser.nestingLimit ∧ b.mostLinks ≤ Parser.linkLimit

def Member.WithinLimits : Member → Prop
  | field f => ∀ e ∈ f.value, e.depth ≤ Parser.nestingLimit ∧ e.links ≤ Parser.linkLimit
  | constructor c => c.body.WithinLimits
  | method m => ∀ b ∈ m.body, b.WithinLimits

def SourceUnit.WithinLimits (u : SourceUnit) : Prop := ∀ c ∈ u.classes, ∀ m ∈ c.members, m.WithinLimits

end RouteDepot.RouteClass
