/-! # Dictionaries

A dictionary holds texts as keys, each once and in ascending order, with a value for each. Two dictionaries with
the same entries are equal, in whatever order the entries were put in.
-/

namespace RouteDepot

/-- Values under texts in ascending order. -/
structure Dictionary (α : Type) where
  entries : List (String × α)
  ascending : (entries.map (·.1)).Pairwise (· < ·)
  deriving DecidableEq

namespace Dictionary

variable {α β ε : Type}

/-- The dictionary without entries. -/
def empty : Dictionary α := ⟨[], .nil⟩

instance : Inhabited (Dictionary α) := ⟨empty⟩

/-- Puts a value under a key in a list of entries with ascending keys. -/
def putEntry (key : String) (value : α) : List (String × α) → List (String × α)
  | [] => [(key, value)]
  | (k, v) :: later =>
    if key < k then (key, value) :: (k, v) :: later
    else if k < key then (k, v) :: putEntry key value later
    else (key, value) :: later

theorem key_of_mem_putEntry {key name : String} {value : α} {entries : List (String × α)}
    (member : name ∈ (putEntry key value entries).map (·.1)) : name = key ∨ name ∈ entries.map (·.1) := by
  induction entries with
  | nil => simpa [putEntry] using member
  | cons entry later ih =>
    obtain ⟨k, v⟩ := entry
    simp only [putEntry] at member
    split at member
    · simpa using member
    split at member
    · simp only [List.map_cons, List.mem_cons] at member ⊢
      rcases member with same | inner
      · exact Or.inr (Or.inl same)
      · exact (ih inner).imp id Or.inr
    · simp only [List.map_cons, List.mem_cons] at member ⊢
      exact member.imp id Or.inr

theorem ascending_putEntry (key : String) (value : α) {entries : List (String × α)}
    (ascending : (entries.map (·.1)).Pairwise (· < ·)) :
    ((putEntry key value entries).map (·.1)).Pairwise (· < ·) := by
  induction entries with
  | nil => simp [putEntry]
  | cons entry later ih =>
    obtain ⟨k, v⟩ := entry
    simp only [List.map_cons, List.pairwise_cons] at ascending
    obtain ⟨above, tail⟩ := ascending
    simp only [putEntry]
    split
    · rename_i below
      simp only [List.map_cons, List.pairwise_cons, List.mem_cons, forall_eq_or_imp]
      exact ⟨⟨below, fun name member => String.lt_trans below (above name member)⟩, above, tail⟩
    split
    · rename_i below
      simp only [List.map_cons, List.pairwise_cons]
      refine ⟨fun name member => ?_, ih tail⟩
      rcases key_of_mem_putEntry member with rfl | older
      · exact below
      · exact above name older
    · rename_i notAbove notBelow
      have same : key = k := String.le_antisymm notBelow notAbove
      simp only [List.map_cons, List.pairwise_cons, same]
      exact ⟨above, tail⟩

/-- Puts a value under a key, in place of the one that stood there. -/
def put (d : Dictionary α) (key : String) (value : α) : Dictionary α :=
  ⟨putEntry key value d.entries, ascending_putEntry key value d.ascending⟩

/-- The value under a key. -/
def get? (d : Dictionary α) (key : String) : Option α := d.entries.lookup key

/-- The entries put in one after another; of two with the same key the later one stays. -/
def ofList (entries : List (String × α)) : Dictionary α :=
  entries.foldl (fun d (key, value) => d.put key value) empty

/-- Turns the values of entries, from the first key on, and stops at the first fault. -/
def traverseEntries (f : α → Except ε β) : List (String × α) → Except ε (List (String × β))
  | [] => .ok []
  | (key, value) :: later => do
    let turned ← f value
    return (key, turned) :: (← traverseEntries f later)

theorem map_fst_traverseEntries {f : α → Except ε β} {entries : List (String × α)}
    {turned : List (String × β)} (success : traverseEntries f entries = .ok turned) :
    turned.map (·.1) = entries.map (·.1) := by
  induction entries generalizing turned with
  | nil => obtain rfl := Except.ok.inj success; rfl
  | cons entry later ih =>
    obtain ⟨key, value⟩ := entry
    simp only [traverseEntries] at success
    cases first : f value with
    | error fault => simp [first, bind, Except.bind] at success
    | ok one =>
      cases others : traverseEntries f later with
      | error fault => simp [first, others, bind, Except.bind] at success
      | ok more =>
        simp only [first, others, bind, Except.bind, pure, Except.pure, Except.ok.injEq] at success
        simp [← success, ih others]

/-- Turns every value, in the order of the keys, and stops at the first fault. -/
def traverse (f : α → Except ε β) (d : Dictionary α) : Except ε (Dictionary β) :=
  match success : traverseEntries f d.entries with
  | .ok entries => .ok ⟨entries, by rw [map_fst_traverseEntries success]; exact d.ascending⟩
  | .error fault => .error fault

end Dictionary

end RouteDepot
