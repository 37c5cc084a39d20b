/-! # Stages of a load

A load moves forward through its stages, one at a time, and stays at the last.
-/

namespace RouteDepot

/-- How far a load has come. -/
inductive LoadStage where
  | resolving | named | compiled | instantiated | configured | merged | done
  deriving DecidableEq, Repr

namespace LoadStage

/-- The name of a stage. -/
def name : LoadStage → String
  | resolving => "resolving"
  | named => "named"
  | compiled => "compiled"
  | instantiated => "instantiated"
  | configured => "configured"
  | merged => "merged"
  | done => "done"

/-- The stage after this one; nothing comes after the last. -/
def next : LoadStage → LoadStage
  | resolving => named
  | named => compiled
  | compiled => instantiated
  | instantiated => configured
  | configured => merged
  | merged | done => done

/-- The number of stages before this one. -/
def position : LoadStage → Nat
  | resolving => 0
  | named => 1
  | compiled => 2
  | instantiated => 3
  | configured => 4
  | merged => 5
  | done => 6

instance : LT LoadStage := ⟨fun a b => a.position < b.position⟩

instance (a b : LoadStage) : Decidable (a < b) := inferInstanceAs (Decidable (a.position < b.position))

/-- The stages passed from this one on, in a number of steps. -/
def walk : Nat → LoadStage → List LoadStage
  | 0, _ => []
  | count + 1, stage => stage :: walk count stage.next

end LoadStage

end RouteDepot
