import Mathlib.Logic.Relation
import RouteDepot.Proofs.Results
import RouteDepot.Proofs.Shallow.Limits

/-! # Shallow trees

The parts of a node are the statements of a block, the expressions of another statement, or the operands and arguments
of an expression. An expression is no higher than its links and the levels that it opens together, so a limit on both
is one on the height. A pass over a tree says what it computes for a node from what it computes for the parts; on a
shallow tree a pass that may only go a fixed number of levels down computes the same.
-/

namespace RouteDepot.RouteClass

/-! ### Nodes and their parts -/

/-- The expressions that an expression is made of. -/
def Expression.parts : Expression → List Expression
  | literal .. | name _ | this _ => []
  | field target _ => [target]
  | call _ args _ | new _ args _ => args
  | callOn target _ args _ => target :: args
  | concat left right => [left, right]

namespace Statement

def IsBlock : Statement → Prop
  | block .. => True
  | _ => False

/-- The expressions that a statement is made of; those of the statements in a block are not its own. -/
def expressions : Statement → List Expression
  | expression value | throw value _ => [value]
  | declare _ _ value => value.toList
  | .return _ | block .. | empty => []

/-- The statements that a statement is made of. -/
def parts : Statement → List Statement
  | block body _ => body
  | _ => []

end Statement

/-- A statement or an expression. -/
inductive Node where
  | statement (s : Statement)
  | expression (e : Expression)

/-- What a node is made of. -/
def Node.parts : Node → List Node
  | statement s => s.parts.map statement ++ s.expressions.map expression
  | expression e => e.parts.map expression

/-- A node is the other one or somewhere inside it. -/
abbrev Node.Within (inner outer : Node) : Prop := Relation.ReflTransGen (fun n m => m ∈ n.parts) outer inner

/-! ### Heights -/

namespace Expression

mutual

/-- How many nodes there are on the longest way down. -/
def height : Expression → Nat
  | literal .. | name _ | this _ => 1
  | field target _ => target.height + 1
  | call _ args _ | new _ args _ => heightAll args + 1
  | callOn target _ args _ => max target.height (heightAll args) + 1
  | concat left right => max left.height right.height + 1

/-- The height of the highest of some expressions. -/
def heightAll : List Expression → Nat
  | [] => 0
  | e :: later => max e.height (heightAll later)

end

mutual

/-- Every step down costs a link, or else opens a level. -/
theorem height_le : (e : Expression) → e.height ≤ e.links + e.depth
  | literal .. | name _ | this _ => Nat.le_add_left _ _
  | field target _ => by
    have := height_le target
    simp only [height, links, depth, nesting] at this ⊢
    omega
  | call _ args _ | new _ args _ => by
    have := heightAll_le args
    simp only [height, links, depth, nesting]
    omega
  | callOn target _ args _ => by
    have := height_le target
    have := heightAll_le args
    simp only [height, links, depth, nesting] at *
    omega
  | concat left right => by
    have := height_le left
    have := height_le right
    simp only [height, links, depth, nesting] at *
    omega

theorem heightAll_le : (list : List Expression) → heightAll list ≤ linksAll list + depthAll list
  | [] => Nat.le_refl _
  | e :: later => by
    have := height_le e
    have := heightAll_le later
    simp only [heightAll, linksAll, depthAll, depth] at *
    omega

end

theorem height_le_heightAll {list : List Expression} {e : Expression} (member : e ∈ list) :
    e.height ≤ heightAll list := by
  induction member with
  | head => exact Nat.le_max_left _ _
  | tail _ _ ih => exact Nat.le_trans ih (Nat.le_max_right _ _)

theorem links_le_linksAll {list : List Expression} {e : Expression} (member : e ∈ list) : e.links ≤ linksAll list := by
  induction member with
  | head => exact Nat.le_add_right _ _
  | tail _ _ ih => exact Nat.le_trans ih (Nat.le_add_left _ _)

theorem height_lt_of_mem_parts {e part : Expression} (member : part ∈ e.parts) : part.height < e.height := by
  cases e <;> simp only [parts, List.not_mem_nil, List.mem_cons, or_false] at member <;> simp only [height]
  case field => rw [member]; omega
  case call | new => exact Nat.lt_succ_of_le (height_le_heightAll member)
  case callOn =>
    obtain rfl | member := member
    · omega
    · have := height_le_heightAll member
      omega
  case concat => obtain rfl | rfl := member <;> omega

theorem links_le_of_mem_parts {e part : Expression} (member : part ∈ e.parts) : part.links ≤ e.links := by
  cases e <;> simp only [parts, List.not_mem_nil, List.mem_cons, or_false] at member <;> simp only [links]
  case field => rw [member]; omega
  case call | new => exact links_le_linksAll member
  case callOn =>
    obtain rfl | member := member
    · omega
    · have := links_le_linksAll member
      omega
  case concat => obtain rfl | rfl := member <;> omega

end Expression

namespace Statement

mutual

/-- How many nodes there are on the longest way down. -/
def height : Statement → Nat
  | expression value | throw value _ => value.height + 1
  | declare _ _ value => (value.map Expression.height).getD 0 + 1
  | .return _ | empty => 1
  | block body _ => heightAll body + 1

/-- The height of the highest of some statements. -/
def heightAll : List Statement → Nat
  | [] => 0
  | s :: later => max s.height (heightAll later)

end

mutual

/-- How deep blocks are nested in a statement. -/
def blocks : Statement → Nat
  | block body _ => blocksAll body + 1
  | _ => 0

/-- How deep blocks are nested in any of some statements. -/
def blocksAll : List Statement → Nat
  | [] => 0
  | s :: later => max s.blocks (blocksAll later)

end

mutual

theorem height_le : (s : Statement) → s.height ≤ s.mostLinks + s.depth + 1
  | expression value | throw value _ | declare _ _ (some value) => Nat.succ_le_succ value.height_le
  | .return _ | empty | declare _ _ none => Nat.le_refl _
  | block body _ => Nat.succ_le_succ (heightAll_le body)

theorem heightAll_le : (list : List Statement) → heightAll list ≤ mostLinksAll list + depthAll list + 1
  | [] => Nat.zero_le _
  | s :: later => by
    have := height_le s
    have := heightAll_le later
    simp only [heightAll, mostLinksAll, depthAll] at *
    omega

end

mutual

theorem blocks_le_depth : (s : Statement) → s.blocks ≤ s.depth
  | expression _ | throw .. | declare .. | .return _ | empty => Nat.zero_le _
  | block body _ => Nat.succ_le_succ (blocksAll_le_depthAll body)

theorem blocksAll_le_depthAll : (list : List Statement) → blocksAll list ≤ depthAll list
  | [] => Nat.le_refl _
  | s :: later => by
    have := blocks_le_depth s
    have := blocksAll_le_depthAll later
    simp only [blocksAll, depthAll] at *
    omega

end

theorem height_le_heightAll {list : List Statement} {s : Statement} (member : s ∈ list) : s.height ≤ heightAll list := by
  induction member with
  | head => exact Nat.le_max_left _ _
  | tail _ _ ih => exact Nat.le_trans ih (Nat.le_max_right _ _)

theorem lower_of_mem_parts {s part : Statement} (member : part ∈ s.parts) :
    part.height < s.height ∧ part.mostLinks ≤ s.mostLinks := by
  cases s with
  | block body _ => exact ⟨Nat.lt_succ_of_le (height_le_heightAll member), mostLinks_le_mostLinksAll member⟩
  | _ => cases member

theorem lower_of_mem_expressions {s : Statement} {e : Expression} (member : e ∈ s.expressions) :
    e.height < s.height ∧ e.links ≤ s.mostLinks := by
  cases s with
  | expression | throw =>
    obtain rfl := List.mem_singleton.mp member
    exact ⟨Nat.lt_succ_self _, Nat.le_refl _⟩
  | declare _ _ value =>
    obtain rfl := Option.mem_toList.mp member
    exact ⟨Nat.lt_succ_self _, Nat.le_refl _⟩
  | _ => cases member

/-- The links of a statement other than a block are those of its expressions together. -/
theorem sum_links_eq_mostLinks {s : Statement} (single : ¬ s.IsBlock) :
    (s.expressions.map Expression.links).sum = s.mostLinks := by
  match s with
  | expression value | throw value _ | declare _ _ (some value) => exact Nat.add_zero _
  | .return _ | empty | declare _ _ none => rfl
  | block .. => exact absurd trivial single

end Statement

namespace Node

def height : Node → Nat
  | statement s => s.height
  | expression e => e.height

/-- The most links of any statement, or those of an expression. -/
def links : Node → Nat
  | statement s => s.mostLinks
  | expression e => e.links

theorem height_pos (n : Node) : 0 < n.height := by
  rcases n with s | e
  · cases s <;> exact Nat.succ_pos _
  · cases e <;> exact Nat.succ_pos _

theorem lower_of_mem_parts {n part : Node} (member : part ∈ n.parts) :
    part.height < n.height ∧ part.links ≤ n.links := by
  cases n with
  | statement s =>
    obtain inside | inside := List.mem_append.mp member
    · obtain ⟨inner, own, rfl⟩ := List.mem_map.mp inside
      exact Statement.lower_of_mem_parts own
    · obtain ⟨inner, own, rfl⟩ := List.mem_map.mp inside
      exact Statement.lower_of_mem_expressions own
  | expression e =>
    obtain ⟨inner, own, rfl⟩ := List.mem_map.mp member
    exact ⟨Expression.height_lt_of_mem_parts own, Expression.links_le_of_mem_parts own⟩

theorem Within.le {inner outer : Node} (within : inner.Within outer) :
    inner.height ≤ outer.height ∧ inner.links ≤ outer.links := by
  induction within with
  | refl => exact ⟨Nat.le_refl _, Nat.le_refl _⟩
  | tail _ member ih =>
    obtain ⟨lower, fewer⟩ := lower_of_mem_parts member
    exact ⟨Nat.le_trans (Nat.le_of_lt lower) ih.1, Nat.le_trans fewer ih.2⟩

end Node

/-! ### Passes -/

/-- What a recursive pass computes for a node, given what it computes for the parts of the node. -/
def Pass (α : Type) : Type := (n : Node) → ((part : Node) → part ∈ n.parts → α) → α

namespace Pass

variable {α : Type}

/-- A pass over the whole tree below a node. -/
def run (pass : Pass α) (n : Node) : α := pass n fun part _ => run pass part
termination_by n.height
decreasing_by exact (Node.lower_of_mem_parts ‹_›).1

/-- A pass with a limit on its calls that are open at the same time, the first one included; one beyond that limit is
stuck. -/
def runWithin (pass : Pass α) (stuck : α) : Nat → Node → α
  | 0, _ => stuck
  | calls + 1, n => pass n fun part _ => runWithin pass stuck calls part

theorem runWithin_eq_run (pass : Pass α) (stuck : α) {calls : Nat} {n : Node} (low : n.height ≤ calls) :
    pass.runWithin stuck calls n = pass.run n := by
  induction calls generalizing n with
  | zero => exact absurd low (Nat.not_le.mpr n.height_pos)
  | succ calls ih =>
    rw [runWithin, run]
    congr 1
    funext part member
    exact ih (Nat.le_of_lt_succ (Nat.lt_of_lt_of_le (Node.lower_of_mem_parts member).1 low))

end Pass

/-! ### Units -/

/-- The statements and initial values at the top of a member. -/
def Member.roots : Member → List Node
  | field f => f.value.toList.map .expression
  | constructor c => c.body.body.map .statement
  | method m => m.body.toList.flatMap fun b => b.body.map .statement

/-- The bodies of a member. -/
def Member.bodies : Member → List Block
  | field _ => []
  | constructor c => [c.body]
  | method m => m.body.toList

/-- How deep blocks are nested, the outermost one included. -/
def Block.blocks (b : Block) : Nat := Statement.blocksAll b.body + 1

namespace SourceUnit

/-- The members of all classes. -/
def members (u : SourceUnit) : List Member := u.classes.flatMap ClassDeclaration.members

/-- The bodies of constructors and methods. -/
def bodies (u : SourceUnit) : List Block := u.members.flatMap Member.bodies

/-- The statements and initial values at the top of members. -/
def roots (u : SourceUnit) : List Node := u.members.flatMap Member.roots

/-- A node is somewhere in the unit. -/
def Holds (u : SourceUnit) (n : Node) : Prop := ∃ root ∈ u.roots, n.Within root

/-- Trees that are safe to walk over by recursion. -/
structure Shallow (u : SourceUnit) : Prop where
  /-- The expressions of a statement have few concatenations, field names and calls on receivers together. -/
  links_statement : ∀ s, u.Holds (.statement s) → ¬ s.IsBlock → (s.expressions.map Expression.links).sum ≤ 512
  /-- So has the initial value of a field. -/
  links_initial : ∀ e, .expression e ∈ u.roots → e.links ≤ 512
  height_expression : ∀ e, u.Holds (.expression e) → e.height ≤ 640
  blocks : ∀ b ∈ u.bodies, b.blocks ≤ 128
  /-- No pass over a tree ever has more calls open than expressions may be high. -/
  passes : ∀ {α : Type} (pass : Pass α) (stuck : α) (n : Node), u.Holds n →
    pass.runWithin stuck 640 n = pass.run n

end SourceUnit

/-- One of the levels is that of the block, which leaves room for the node of the statement itself. -/
theorem Block.WithinLimits.statement {b : Block} (within : b.WithinLimits) {s : Statement} (member : s ∈ b.body) :
    s.height ≤ 640 ∧ s.mostLinks ≤ 512 := by
  have levels : s.depth + 1 ≤ 128 := Nat.le_trans (Nat.succ_le_succ (Statement.depth_le_depthAll member)) within.1
  have links : s.mostLinks ≤ 512 := Nat.le_trans (Statement.mostLinks_le_mostLinksAll member) within.2
  have := s.height_le
  exact ⟨by omega, links⟩

theorem Member.WithinLimits.root {m : Member} (within : m.WithinLimits) {n : Node} (root : n ∈ m.roots) :
    n.height ≤ 640 ∧ n.links ≤ 512 := by
  cases m with
  | field f =>
    obtain ⟨e, initial, rfl⟩ := List.mem_map.mp root
    have ⟨levels, links⟩ := within e (Option.mem_toList.mp initial)
    exact ⟨Nat.le_trans e.height_le (Nat.add_le_add links levels), links⟩
  | constructor c =>
    obtain ⟨s, member, rfl⟩ := List.mem_map.mp root
    exact Block.WithinLimits.statement within member
  | method m =>
    obtain ⟨b, body, root⟩ := List.mem_flatMap.mp root
    obtain ⟨s, member, rfl⟩ := List.mem_map.mp root
    exact Block.WithinLimits.statement (within b (Option.mem_toList.mp body)) member

theorem Member.WithinLimits.body {m : Member} (within : m.WithinLimits) {b : Block} (body : b ∈ m.bodies) :
    b.WithinLimits := by
  cases m with
  | field f => cases body
  | constructor c =>
    obtain rfl := List.mem_singleton.mp body
    exact within
  | method m => exact within b (Option.mem_toList.mp body)

namespace SourceUnit

theorem WithinLimits.member {u : SourceUnit} (within : u.WithinLimits) {m : Member} (member : m ∈ u.members) :
    m.WithinLimits := by
  obtain ⟨c, declared, member⟩ := List.mem_flatMap.mp member
  exact within c declared m member

theorem WithinLimits.holds {u : SourceUnit} (within : u.WithinLimits) {n : Node} (holds : u.Holds n) :
    n.height ≤ 640 ∧ n.links ≤ 512 := by
  obtain ⟨root, top, inside⟩ := holds
  obtain ⟨m, member, top⟩ := List.mem_flatMap.mp top
  obtain ⟨low, few⟩ := (within.member member).root top
  obtain ⟨lower, fewer⟩ := inside.le
  exact ⟨Nat.le_trans lower low, Nat.le_trans fewer few⟩

/-- Tokens form shallow trees only. -/
theorem shallow_of_ofTokens {tokens : List Token} {stop : Span} {u : SourceUnit} (formed : ofTokens tokens stop = .ok u) :
    u.Shallow where
  links_statement s holds single := by
    rw [Statement.sum_links_eq_mostLinks single]
    exact ((withinLimits_of_ofTokens formed).holds holds).2
  links_initial e root := ((withinLimits_of_ofTokens formed).holds ⟨_, root, .refl⟩).2
  height_expression e holds := ((withinLimits_of_ofTokens formed).holds holds).1
  blocks b body := by
    obtain ⟨m, member, body⟩ := List.mem_flatMap.mp body
    have within := ((withinLimits_of_ofTokens formed).member member).body body
    exact Nat.le_trans (Nat.succ_le_succ (Statement.blocksAll_le_depthAll b.body)) within.1
  passes pass stuck n holds := pass.runWithin_eq_run stuck ((withinLimits_of_ofTokens formed).holds holds).1

/-- A class with a sum and a chain in needless parentheses, and with calls inside a block of a block. -/
def nestedTokens : List TokenKind :=
  [.keyword .classKw, .ident "A", .mark .braceOpen, .ident "B", .ident "b", .mark .equal, .mark .parenOpen,
    .mark .parenOpen, .ident "c", .mark .dot, .ident "d", .mark .parenClose, .mark .plus, .int 1, .mark .parenClose,
    .mark .semicolon, .ident "A", .mark .parenOpen, .mark .parenClose, .mark .braceOpen, .mark .braceOpen, .ident "f",
    .mark .parenOpen, .ident "g", .mark .parenOpen, .mark .parenClose, .mark .parenClose, .mark .dot, .ident "h",
    .mark .parenOpen, .mark .parenClose, .mark .semicolon, .mark .braceClose, .mark .braceClose, .mark .braceClose]

theorem nestedTokens_shallow :
    ∃ u, ofTokens (nestedTokens.map fun kind => ⟨kind, ⟨0, 0⟩⟩) ⟨1, 1⟩ = .ok u ∧ u.Shallow := by
  obtain ⟨u, formed⟩ := Except.exists_of_isOk
    (by decide +kernel : (ofTokens (nestedTokens.map fun kind => ⟨kind, ⟨0, 0⟩⟩) ⟨1, 1⟩).isOk = true)
  exact ⟨u, formed, shallow_of_ofTokens formed⟩

end SourceUnit

end RouteDepot.RouteClass
