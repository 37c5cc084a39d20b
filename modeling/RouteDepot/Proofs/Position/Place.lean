import RouteDepot.Excerpt.Drawing
import RouteDepot.Proofs.Position.Boundary
import RouteDepot.Text.Cut

/-! # Where diagnostics are shown

The line and the column of a diagnostic lead back to the offset that its bytes begin at, and they grow with it. The
bytes that are marked for a span in a drawing are whole characters, as many as the span covers but at least one.
-/

namespace RouteDepot

namespace Text

variable {whole before rest : List Char} {line column offset : Nat}

/-! ### Lines and columns -/

/-- Lines with their line feeds. -/
def endLines (lines : List (List Char)) : List Char := lines.flatMap (· ++ ['\n'])

/-- A line and a column lead to an offset. The text is cut at its line feeds; the lines in front of the one meant and
the characters in front of the column are what stands before the offset. -/
def LeadsTo (whole : List Char) (line column offset : Nat) : Prop :=
  ∃ earlier skipped behind later, piecesList '\n' whole = earlier ++ (skipped ++ behind) :: later ∧
    line = earlier.length + 1 ∧ column = skipped.length + 1 ∧ endLines earlier ++ skipped <+: whole ∧
    offset = byteLength (endLines earlier ++ skipped)

/-- A line and a column lead to one offset at most. -/
theorem LeadsTo.unique {offset' : Nat} (leads : LeadsTo whole line column offset)
    (also : LeadsTo whole line column offset') : offset = offset' := by
  obtain ⟨earlier, skipped, behind, later, cut, rfl, rfl, _, rfl⟩ := leads
  obtain ⟨earlier', skipped', behind', later', cut', lines, columns, _, rfl⟩ := also
  obtain ⟨rfl, rest⟩ := List.append_inj (cut.symm.trans cut') (Nat.succ.inj lines)
  obtain ⟨rfl, _⟩ := List.append_inj (List.cons.inj rest).1 (Nat.succ.inj columns)
  rfl

theorem piecesList_ne_nil (separator : Char) (cs : List Char) : piecesList separator cs ≠ [] := by
  fun_cases piecesList separator cs <;> exact List.cons_ne_nil _ _

/-- A text is lines that have ended and a line that has not; a text behind it goes on from there. -/
theorem exists_lines (before : List Char) :
    ∃ earlier last, before = endLines earlier ++ last ∧ (∀ line ∈ earlier, '\n' ∉ line) ∧ '\n' ∉ last ∧
      ∀ rest first later, piecesList '\n' rest = first :: later →
        piecesList '\n' (before ++ rest) = earlier ++ (last ++ first) :: later := by
  induction before with
  | nil => exact ⟨[], [], rfl, nofun, List.not_mem_nil, fun _ _ _ => id⟩
  | cons c before ih =>
    obtain ⟨earlier, last, rfl, whole, open_, continues⟩ := ih
    by_cases ends : c = '\n'
    · refine ⟨[] :: earlier, last, by rw [ends]; rfl, List.forall_mem_cons.mpr ⟨List.not_mem_nil, whole⟩, open_, ?_⟩
      intro rest first later cut
      rw [List.cons_append, piecesList, if_pos ends, continues rest first later cut]
      rfl
    · have absent {line : List Char} (without : '\n' ∉ line) : '\n' ∉ c :: line :=
        fun member => (List.mem_cons.mp member).elim (fun same => ends same.symm) without
      cases earlier with
      | nil =>
        refine ⟨[], c :: last, rfl, whole, absent open_, fun rest first later cut => ?_⟩
        rw [List.cons_append, piecesList, if_neg ends, continues rest first later cut]
        rfl
      | cons line earlier =>
        obtain ⟨here, further⟩ := List.forall_mem_cons.mp whole
        refine ⟨(c :: line) :: earlier, last, rfl, List.forall_mem_cons.mpr ⟨absent here, further⟩, open_, ?_⟩
        intro rest first later cut
        rw [List.cons_append, piecesList, if_neg ends, continues rest first later cut]
        rfl

theorem count_endLines {lines : List (List Char)} (whole : ∀ line ∈ lines, '\n' ∉ line) :
    (endLines lines).count '\n' = lines.length := by
  induction lines with
  | nil => rfl
  | cons line lines ih =>
    obtain ⟨here, further⟩ := List.forall_mem_cons.mp whole
    have shape : endLines (line :: lines) = line ++ '\n' :: endLines lines := by simp [endLines]
    rw [shape, List.count_append, List.count_eq_zero.mpr here, List.count_cons_self, ih further, Nat.zero_add,
      List.length_cons]

end Text

namespace Diagnostic

open Text

theorem columnAfter_of_unbroken {last : List Char} (unbroken : '\n' ∉ last) (front : List Char) :
    columnAfter (front ++ last) = columnAfter front + last.length := by
  have passes : ∀ c ∈ last.reverse, c != '\n' := fun c member => by
    have same : c ≠ '\n' := fun same => unbroken (same ▸ List.mem_reverse.mp member)
    simpa using same
  rw [columnAfter, columnAfter, List.reverse_append, List.takeWhile_append_of_pos passes, List.length_append,
    List.length_reverse]
  omega

theorem columnAfter_endLines (lines : List (List Char)) : columnAfter (endLines lines) = 1 := by
  rcases List.eq_nil_or_concat' lines with rfl | ⟨lines, line, rfl⟩
  · rfl
  · simp [columnAfter, endLines]

variable {whole rest rest' : List Char} {offset offset' : Nat}

/-- The line and the column of an offset lead back to it. -/
theorem leadsTo_of_restAt (stands : RestAt whole offset rest) :
    LeadsTo whole (lineAfter (textBefore whole offset)) (columnAfter (textBefore whole offset)) offset := by
  obtain ⟨shape, size⟩ := stands.textBefore
  generalize textBefore whole offset = before at shape size ⊢
  obtain ⟨earlier, last, rfl, ended, unbroken, continues⟩ := exists_lines before
  obtain ⟨first, later, cut⟩ := List.exists_cons_of_ne_nil (piecesList_ne_nil '\n' rest)
  refine ⟨earlier, last, first, later, shape ▸ continues rest first later cut, ?_, ?_, ⟨rest, shape.symm⟩, size.symm⟩
  · rw [lineAfter, List.count_append, count_endLines ended, List.count_eq_zero.mpr unbroken, Nat.add_zero]
  · rw [columnAfter_of_unbroken unbroken, columnAfter_endLines, Nat.add_comm]

/-- A text that goes on ends on a later line, or further on in the same line. -/
theorem lineAfter_columnAfter_grow (before : List Char) {more : List Char} (present : more ≠ []) :
    lineAfter before < lineAfter (before ++ more) ∨
      lineAfter before = lineAfter (before ++ more) ∧ columnAfter before < columnAfter (before ++ more) := by
  rw [lineAfter, lineAfter, List.count_append]
  by_cases ends : '\n' ∈ more
  · have positive := List.count_pos_iff.mpr ends
    exact .inl (by omega)
  · have positive := List.length_pos_iff.mpr present
    rw [List.count_eq_zero.mpr ends, columnAfter_of_unbroken ends]
    exact .inr ⟨rfl, by omega⟩

/-- Of two offsets the smaller one is on an earlier line, or further in front in the same line. -/
theorem lineAfter_columnAfter_strictMono (first : RestAt whole offset rest) (second : RestAt whole offset' rest')
    (below : offset < offset') :
    lineAfter (textBefore whole offset) < lineAfter (textBefore whole offset') ∨
      lineAfter (textBefore whole offset) = lineAfter (textBefore whole offset') ∧
        columnAfter (textBefore whole offset) < columnAfter (textBefore whole offset') := by
  obtain ⟨shape, size⟩ := first.textBefore
  obtain ⟨shape', size'⟩ := second.textBefore
  generalize textBefore whole offset = before, textBefore whole offset' = before' at *
  obtain ⟨more, rfl, _⟩ | ⟨more, rfl, _⟩ := List.append_eq_append_iff.mp (shape.symm.trans shape')
  · refine lineAfter_columnAfter_grow before fun nothing => ?_
    rw [nothing, List.append_nil] at size'
    omega
  · rw [byteLength_append] at size
    omega

/-! ### Located diagnostics -/

/-- A diagnostic stands in front of another: on an earlier line, or further in front in the same line. -/
def ReadsBefore (d d' : Diagnostic) : Prop := d.line < d'.line ∨ d.line = d'.line ∧ d.column < d'.column

/-- A diagnostic that is located in a source, at bytes of it. -/
def LocatedIn (d : Diagnostic) (source : String) : Prop :=
  d.span.Within source.toList 0 source.utf8ByteSize ∧ d = locate source d.span d.message

variable {source : String} {d d' : Diagnostic}

theorem locatedIn_locate {span : Span} (within : span.Within source.toList 0 source.utf8ByteSize) (message : String) :
    (locate source span message).LocatedIn source :=
  ⟨within, rfl⟩

namespace LocatedIn

theorem line_column (located : d.LocatedIn source) :
    d.line = lineAfter (textBefore source.toList d.span.start) ∧
      d.column = columnAfter (textBefore source.toList d.span.start) := by
  obtain ⟨within, same⟩ := located
  have start : min d.span.start source.utf8ByteSize = d.span.start :=
    Nat.min_eq_left (Nat.le_trans within.ordered within.below)
  rw [same, locate, start]
  exact ⟨rfl, rfl⟩

/-- The line and the column determine where a located diagnostic begins. -/
theorem leadsTo (located : d.LocatedIn source) : LeadsTo source.toList d.line d.column d.span.start := by
  obtain ⟨rest, stands⟩ := located.1.start_boundary
  rw [located.line_column.1, located.line_column.2]
  exact leadsTo_of_restAt stands

/-- Lines and columns are in the order of the offsets. -/
theorem readsBefore_iff (located : d.LocatedIn source) (located' : d'.LocatedIn source) :
    d.ReadsBefore d' ↔ d.span.start < d'.span.start := by
  obtain ⟨rest, stands⟩ := located.1.start_boundary
  obtain ⟨rest', stands'⟩ := located'.1.start_boundary
  rw [ReadsBefore, located.line_column.1, located.line_column.2, located'.line_column.1, located'.line_column.2]
  refine ⟨fun before => ?_, lineAfter_columnAfter_strictMono stands stands'⟩
  by_contra notBelow
  obtain same | above := Nat.eq_or_lt_of_le (Nat.not_lt.mp notBelow)
  · rw [same] at before
    omega
  · have after := lineAfter_columnAfter_strictMono stands' stands above
    omega

end LocatedIn

end Diagnostic

/-! ### Marked bytes -/

namespace Excerpt

open Text

variable {whole : List Char} {s : Span}

/-- Bytes that are marked for a span: whole characters, among them those of the span, and at least one if there is
any. -/
structure Marks (whole : List Char) (s marked : Span) : Prop where
  within : marked.Within whole 0 (byteLength whole)
  start_le : marked.start ≤ s.start
  le_stop : s.stop ≤ marked.stop
  nonempty : whole ≠ [] → marked.start < marked.stop

/-- What is marked for a span without bytes, between the characters in front of it and those behind it. -/
theorem widen_empty (before rest : List Char) :
    Marks (before ++ rest) ⟨byteLength before, byteLength before⟩
      (widen (before ++ rest) ⟨byteLength before, byteLength before⟩) := by
  have inside : byteLength before ≤ byteLength (before ++ rest) := by rw [byteLength_append]; omega
  have here : RestAt (before ++ rest) (byteLength before) rest := ⟨before, rfl, rfl⟩
  simp only [widen, Nat.min_eq_left inside, Nat.max_self, Nat.lt_irrefl, ↓reduceIte, splitAtByte?_append]
  cases rest with
  | cons c rest =>
    have size := c.utf8Size_pos
    have behind := here.tail.isBoundary
    exact ⟨⟨Nat.zero_le _, by dsimp only; omega, behind.le, here.isBoundary, behind⟩, Nat.le_refl _,
      by dsimp only; omega, fun _ => by dsimp only; omega⟩
  | nil =>
    rcases List.eq_nil_or_concat' before with rfl | ⟨front, c, rfl⟩
    · exact ⟨⟨Nat.zero_le _, Nat.le_refl _, inside, here.isBoundary, here.isBoundary⟩, Nat.le_refl _, Nat.le_refl _,
        fun present => absurd rfl present⟩
    · have size := c.utf8Size_pos
      have length : byteLength (front ++ [c]) = byteLength front + c.utf8Size := byteLength_append ..
      have inFront : IsBoundary (front ++ [c] ++ []) (byteLength front) := ⟨[c], front, List.append_nil _, rfl⟩
      have start : byteLength (front ++ [c]) - c.utf8Size = byteLength front := by omega
      simp only [List.getLast?_concat, start]
      exact ⟨⟨Nat.zero_le _, by dsimp only; omega, inside, inFront, here.isBoundary⟩, by dsimp only; omega,
        Nat.le_refl _, fun _ => by dsimp only; omega⟩

theorem marks_widen (within : s.Within whole 0 (byteLength whole)) : Marks whole s (widen whole s) := by
  by_cases long : s.start < s.stop
  · have start : min s.start (byteLength whole) = s.start :=
      Nat.min_eq_left (Nat.le_trans within.ordered within.below)
    have stop : max s.start (min s.stop (byteLength whole)) = s.stop := by
      rw [Nat.min_eq_left within.below, Nat.max_eq_right within.ordered]
    simp only [widen, start, stop, if_pos long]
    exact ⟨within, Nat.le_refl _, Nat.le_refl _, fun _ => long⟩
  · obtain ⟨start, stop⟩ := s
    obtain rfl : start = stop := Nat.le_antisymm within.ordered (Nat.not_lt.mp long)
    obtain ⟨rest, before, rfl, rfl⟩ := within.start_boundary
    exact widen_empty before rest

end Excerpt

end RouteDepot
