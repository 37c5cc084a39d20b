import RouteDepot.Proofs.Trimming
import Mathlib.Data.List.Basic

/-! # Words joined by dots

Words with dots between them are told apart again when none of them is empty or has a dot in it.
-/

namespace RouteDepot

/-- The characters of a joined text: those of the first word, and each other word behind a dot. -/
theorem toList_intercalate_cons (word : String) (words : List String) :
    (".".intercalate (word :: words)).toList = word.toList ++ words.flatMap fun word => '.' :: word.toList := by
  induction words generalizing word with
  | nil => simp
  | cons next words ih => simp [ih next]

/-- A word that may be joined to others: it is not empty, and there is no dot in it. -/
def IsPlainWord (word : String) : Prop := word ≠ "" ∧ '.' ∉ word.toList

theorem IsPlainWord.noDot {word : String} (plain : IsPlainWord word) : ∀ c ∈ word.toList, (c != '.') = true := by
  intro c member
  rw [bne_iff_ne]
  rintro rfl
  exact plain.2 member

/-- Behind the words that follow, or at the end, comes no character of a word. -/
theorem dotted_stops (words : List String) :
    ∀ c ∈ (words.flatMap fun word => '.' :: word.toList).head?, (c != '.') = false := by
  cases words <;> simp

theorem dotted_injective {words words' : List String} (plain : ∀ word ∈ words, IsPlainWord word)
    (plain' : ∀ word ∈ words', IsPlainWord word)
    (same : (words.flatMap fun word => '.' :: word.toList) = words'.flatMap fun word => '.' :: word.toList) :
    words = words' := by
  induction words generalizing words' with
  | nil =>
    cases words' with
    | nil => rfl
    | cons => simp at same
  | cons word words ih =>
    cases words' with
    | nil => simp at same
    | cons word' words' =>
      obtain ⟨first, plain⟩ := List.forall_mem_cons.mp plain
      obtain ⟨first', plain'⟩ := List.forall_mem_cons.mp plain'
      rw [List.flatMap_cons, List.flatMap_cons, List.cons_append, List.cons_append] at same
      obtain ⟨sameWord, rest⟩ := append_inj_of_stops first.noDot first'.noDot (dotted_stops words) (dotted_stops words')
        (List.cons.inj same).2
      rw [String.toList_inj.mp sameWord, ih plain plain' rest]

/-- Different lists of plain words are joined to different texts. -/
theorem intercalate_injective {words words' : List String} (plain : ∀ word ∈ words, IsPlainWord word)
    (plain' : ∀ word ∈ words', IsPlainWord word) (same : ".".intercalate words = ".".intercalate words') :
    words = words' := by
  -- The dot in front of the first word is added on both sides; only a list without words has no first word.
  have notEmpty {word : String} {later : List String} (first : IsPlainWord word) :
      ".".intercalate (word :: later) ≠ "" := by
    rw [Ne, ← String.toList_inj, toList_intercalate_cons, String.toList_empty, List.append_eq_nil_iff,
      String.toList_eq_nil_iff]
    exact fun empty => first.1 empty.1
  cases words with
  | nil =>
    cases words' with
    | nil => rfl
    | cons => exact absurd same.symm (notEmpty (plain' _ List.mem_cons_self))
  | cons word words =>
    cases words' with
    | nil => exact absurd same (notEmpty (plain _ List.mem_cons_self))
    | cons word' words' =>
      refine dotted_injective plain plain' ?_
      rw [List.flatMap_cons, List.flatMap_cons, List.cons_append, List.cons_append, ← toList_intercalate_cons,
        ← toList_intercalate_cons, same]

end RouteDepot
