import RouteDepot.Text.Cut
import Mathlib.Data.List.Basic

/-! # Texts cut at a character

Cutting undoes joining: a separator that does not occur in front of itself is the first one, one that does not occur
behind itself is the last one, and words without it are the pieces of the text that they are joined to.
-/

namespace RouteDepot

namespace Text

variable {separator : Char} {s before after : String}

/-- A text is cut at the first separator. -/
theorem cut?_of_split (split : s.toList = before.toList ++ separator :: after.toList)
    (first : separator ∉ before.toList) : cut? separator s = some (before, after) := by
  rw [cut?, split, cutList?_append first]
  simp

theorem cut?_eq_none (absent : separator ∉ s.toList) : cut? separator s = none := by
  rw [cut?, cutList?_eq_none.mpr absent, Option.map_none]

/-- A text is cut at the last separator. -/
theorem cutLast?_of_split (split : s.toList = before.toList ++ separator :: after.toList)
    (last : separator ∉ after.toList) : cutLast? separator s = some (before, after) := by
  have reversed : s.toList.reverse = after.toList.reverse ++ separator :: before.toList.reverse := by
    rw [split, List.reverse_append, List.reverse_cons, List.append_assoc, List.singleton_append]
  have found := cutList?_append (fun member => last (List.mem_reverse.mp member)) before.toList.reverse
  rw [cutLast?, cutLastList?, reversed, found]
  simp

theorem cutLast?_eq_some (found : cutLast? separator s = some (before, after)) :
    s.toList = before.toList ++ separator :: after.toList ∧ separator ∉ after.toList := by
  obtain ⟨⟨front, back⟩, cut, same⟩ := Option.map_eq_some_iff.mp found
  obtain ⟨⟨back', front'⟩, reversed, same'⟩ := Option.map_eq_some_iff.mp cut
  cases same
  cases same'
  obtain ⟨shape, last⟩ := cutList?_eq_some reversed
  have shape : s.toList = front'.reverse ++ separator :: back'.reverse := by simpa using congrArg List.reverse shape
  rw [String.toList_ofList, String.toList_ofList, List.mem_reverse]
  exact ⟨shape, last⟩

theorem cutLast?_eq_none (absent : cutLast? separator s = none) : separator ∉ s.toList := by
  have reversed := cutList?_eq_none.mp (Option.map_eq_none_iff.mp (Option.map_eq_none_iff.mp absent))
  rwa [List.mem_reverse] at reversed

/-! ### Pieces -/

/-- A text without a separator is one piece. -/
theorem piecesList_of_absent {cs : List Char} (absent : separator ∉ cs) : piecesList separator cs = [cs] := by
  induction cs with
  | nil => rfl
  | cons c cs ih =>
    obtain ⟨differs, absent⟩ := not_or.mp (List.mem_cons.not.mp absent)
    rw [piecesList, if_neg (Ne.symm differs), ih absent]

/-- The first piece ends in front of the first separator. -/
theorem piecesList_append {front : List Char} (first : separator ∉ front) (rest : List Char) :
    piecesList separator (front ++ separator :: rest) = front :: piecesList separator rest := by
  induction front with
  | nil => rw [List.nil_append, piecesList, if_pos rfl]
  | cons c front ih =>
    obtain ⟨differs, first⟩ := not_or.mp (List.mem_cons.not.mp first)
    rw [List.cons_append, piecesList, if_neg (Ne.symm differs), ih first]

/-- Words that are joined by a separator are told apart again when it is in none of them. -/
theorem pieces_intercalate {joint word : String} {words : List String} (single : joint.toList = [separator])
    (absent : ∀ word' ∈ word :: words, separator ∉ word'.toList) :
    pieces separator (joint.intercalate (word :: words)) = word :: words := by
  induction words generalizing word with
  | nil => simp [pieces, piecesList_of_absent (absent word List.mem_cons_self)]
  | cons next words ih =>
    obtain ⟨first, absent⟩ := List.forall_mem_cons.mp absent
    have joined : (joint.intercalate (word :: next :: words)).toList =
        word.toList ++ separator :: (joint.intercalate (next :: words)).toList := by
      simp [single]
    rw [pieces, joined, piecesList_append first, List.map_cons, String.ofList_toList]
    exact congrArg (word :: ·) (ih absent)

end Text

end RouteDepot
