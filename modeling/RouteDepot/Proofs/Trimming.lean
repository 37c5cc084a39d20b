import RouteDepot.Text.Blank
import Mathlib.Data.List.TakeWhile

/-! # Runs of characters and trimmed texts

A run of characters ends where the text behind it does not go on with it. Trimming cuts off the blanks at both ends of
a text and nothing else: `TrimsTo` says so without a function, and every text is trimmed to exactly one text.
-/

namespace RouteDepot

/-- A run of characters ends where the text behind it does not go on with it. -/
theorem takeWhile_append_of_stops {p : Char → Bool} {run rest : List Char} (inside : ∀ c ∈ run, p c)
    (stops : ∀ c ∈ rest.head?, p c = false) : (run ++ rest).takeWhile p = run ∧ (run ++ rest).dropWhile p = rest := by
  rw [List.takeWhile_append_of_pos inside, List.dropWhile_append_of_pos inside]
  cases rest with
  | nil => simp
  | cons c more => simp [stops c rfl]

/-- A run in front of what does not go on with it is told from what follows in one way. -/
theorem append_inj_of_stops {p : Char → Bool} {run run' rest rest' : List Char} (inside : ∀ c ∈ run, p c)
    (inside' : ∀ c ∈ run', p c) (stops : ∀ c ∈ rest.head?, p c = false) (stops' : ∀ c ∈ rest'.head?, p c = false)
    (same : run ++ rest = run' ++ rest') : run = run' ∧ rest = rest' := by
  obtain ⟨taken, dropped⟩ := takeWhile_append_of_stops inside stops
  obtain ⟨taken', dropped'⟩ := takeWhile_append_of_stops inside' stops'
  rw [same] at taken dropped
  exact ⟨taken.symm.trans taken', dropped.symm.trans dropped'⟩

/-- A run of characters that was dropped ends in front of the rest. -/
theorem dropWhile_stops (p : Char → Bool) (cs : List Char) : ∀ c ∈ (cs.dropWhile p).head?, p c = false := by
  intro c begins
  have stopped := List.head?_dropWhile_not p cs
  rwa [begins] at stopped

namespace Text

/-- Only blanks stand around the core of a text, which neither begins nor ends with one. -/
structure TrimsTo (cs core : List Char) : Prop where
  surrounded : ∃ front back, cs = front ++ core ++ back ∧ (∀ c ∈ front, isBlank c) ∧ ∀ c ∈ back, isBlank c
  begins : ∀ c ∈ core.head?, isBlank c = false
  ends : ∀ c ∈ core.getLast?, isBlank c = false

theorem trimsTo_trimList (cs : List Char) : TrimsTo cs (trimList cs) := by
  have stops := dropWhile_stops isBlank cs
  have blankFront : ∀ c ∈ cs.takeWhile isBlank, isBlank c := fun _ => List.mem_takeWhile_imp
  unfold trimList trimEndList
  generalize middle : cs.dropWhile isBlank = rest at stops
  have whole : cs = cs.takeWhile isBlank ++ rest := by rw [← middle, List.takeWhile_append_dropWhile]
  have split : rest = (rest.reverse.dropWhile isBlank).reverse ++ (rest.reverse.takeWhile isBlank).reverse := by
    rw [← List.reverse_append, List.takeWhile_append_dropWhile, List.reverse_reverse]
  refine ⟨⟨_, (rest.reverse.takeWhile isBlank).reverse, ?_, blankFront, ?_⟩, ?_, ?_⟩
  · rw [List.append_assoc, ← split]
    exact whole
  · intro c member
    exact List.mem_takeWhile_imp (List.mem_reverse.mp member)
  · -- What is left begins with the first character that is no blank, if anything is left.
    intro c begins
    apply stops
    rw [split, List.head?_append, Option.mem_def.mp begins]
    rfl
  · intro c last
    rw [List.getLast?_reverse] at last
    exact dropWhile_stops isBlank rest.reverse c last

theorem trimList_eq_of_trimsTo {cs core : List Char} (trims : TrimsTo cs core) : trimList cs = core := by
  obtain ⟨⟨front, back, rfl, blankFront, blankBack⟩, begins, ends⟩ := trims
  have blankBack : ∀ c ∈ back.reverse, isBlank c := fun c member => blankBack c (List.mem_reverse.mp member)
  unfold trimList trimEndList
  cases core with
  | nil =>
    have allBlank : (front ++ [] ++ back).dropWhile isBlank = [] := by
      rw [List.dropWhile_eq_nil_iff]
      intro c member
      rcases List.mem_append.mp member with inFront | inBack
      · exact blankFront c (by simpa using inFront)
      · exact blankBack c (List.mem_reverse.mpr inBack)
    rw [allBlank]
    rfl
  | cons c later =>
    have frontDropped : (front ++ (c :: later ++ back)).dropWhile isBlank = c :: later ++ back :=
      (takeWhile_append_of_stops blankFront (by simpa using begins)).2
    have backDropped : (back.reverse ++ (c :: later).reverse).dropWhile isBlank = (c :: later).reverse :=
      (takeWhile_append_of_stops blankBack (by rwa [List.head?_reverse])).2
    rw [List.append_assoc, frontDropped, List.reverse_append, backDropped, List.reverse_reverse]

/-- A text without blanks at its ends is trimmed to itself. -/
theorem trimList_eq_self {cs : List Char} (begins : ∀ c ∈ cs.head?, isBlank c = false)
    (ends : ∀ c ∈ cs.getLast?, isBlank c = false) : trimList cs = cs :=
  trimList_eq_of_trimsTo ⟨⟨[], [], by simp, by simp, by simp⟩, begins, ends⟩

/-- Blanks around a text do not count. -/
theorem trimList_surrounded {front cs back : List Char} (blankFront : ∀ c ∈ front, isBlank c)
    (blankBack : ∀ c ∈ back, isBlank c) : trimList (front ++ cs ++ back) = trimList cs := by
  obtain ⟨⟨front', back', surrounded, blankFront', blankBack'⟩, begins, ends⟩ := trimsTo_trimList cs
  refine trimList_eq_of_trimsTo ⟨⟨front ++ front', back' ++ back, ?_, ?_, ?_⟩, begins, ends⟩
  · calc
      front ++ cs ++ back = front ++ (front' ++ trimList cs ++ back') ++ back := by rw [← surrounded]
      _ = front ++ front' ++ trimList cs ++ (back' ++ back) := by simp only [List.append_assoc]
  · exact List.forall_mem_append.mpr ⟨blankFront, blankFront'⟩
  · exact List.forall_mem_append.mpr ⟨blankBack', blankBack⟩

/-- Every text is trimmed to exactly one text. -/
theorem trimsTo_iff {cs core : List Char} : TrimsTo cs core ↔ trimList cs = core := by
  constructor
  · exact trimList_eq_of_trimsTo
  · rintro rfl
    exact trimsTo_trimList cs

end Text

end RouteDepot
