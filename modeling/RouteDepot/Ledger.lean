/-! # Ledgers

A ledger holds values under texts, each text once, in the order in which the texts were first used.
-/

namespace RouteDepot

/-- Values under texts in the order of first use. -/
structure Ledger (α : Type) where
  entries : List (String × α)
  unique : (entries.map (·.1)).Nodup
  deriving DecidableEq

namespace Ledger

variable {α : Type}

/-- The ledger without entries. -/
def empty : Ledger α := ⟨[], .nil⟩

instance : Inhabited (Ledger α) := ⟨empty⟩

/-- The texts in the order of first use. -/
def keys (l : Ledger α) : List String := l.entries.map (·.1)

/-- The value under a text. -/
def get? (l : Ledger α) (key : String) : Option α := l.entries.lookup key

/-- Puts a value under a text: in its place if the text was used before, and at the end otherwise. -/
def putEntry (key : String) (value : α) : List (String × α) → List (String × α)
  | [] => [(key, value)]
  | (k, v) :: later => if k = key then (key, value) :: later else (k, v) :: putEntry key value later

theorem map_fst_putEntry (key : String) (value : α) (entries : List (String × α)) :
    (putEntry key value entries).map (·.1) =
      if key ∈ entries.map (·.1) then entries.map (·.1) else entries.map (·.1) ++ [key] := by
  induction entries with
  | nil => simp [putEntry]
  | cons entry later ih =>
    obtain ⟨k, v⟩ := entry
    by_cases same : k = key
    · simp [putEntry, same]
    · simp only [putEntry, same, if_false, List.map_cons, ih, List.mem_cons, Ne.symm same, false_or]
      split <;> simp

theorem nodup_putEntry (key : String) (value : α) {entries : List (String × α)}
    (unique : (entries.map (·.1)).Nodup) : ((putEntry key value entries).map (·.1)).Nodup := by
  rw [map_fst_putEntry]
  split
  · exact unique
  · rename_i absent
    rw [List.nodup_append]
    refine ⟨unique, by simp, fun name member other equal => ?_⟩
    obtain rfl := List.mem_singleton.mp equal
    rintro rfl
    exact absent member

/-- Puts a value under a text: in its place if the text was used before, and at the end otherwise. -/
def put (l : Ledger α) (key : String) (value : α) : Ledger α :=
  ⟨putEntry key value l.entries, nodup_putEntry key value l.unique⟩

/-- The entries put in one after another: a repeated text keeps its first place and takes the last value. -/
def ofList (entries : List (String × α)) : Ledger α :=
  entries.foldl (fun l (key, value) => l.put key value) empty

/-- The texts after a value was put under one: a new text comes last. -/
theorem keys_put (l : Ledger α) (key : String) (value : α) :
    (l.put key value).keys = if key ∈ l.keys then l.keys else l.keys ++ [key] :=
  map_fst_putEntry key value l.entries

end Ledger

end RouteDepot
