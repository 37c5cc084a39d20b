import Mathlib.Data.Bool.AllAny
import RouteDepot.Proofs.Naming.Package
import RouteDepot.Proofs.Trimming

/-! # The grammar of names

The package of a text is declared by a phrase at its beginning: a word, a name and a semicolon, with blanks between
them. `Declaration` is the grammar of such texts. A text is in it in at most one way, and the package that is found is
the name in the phrase; a text without the phrase declares none. What a suffix leaves of the name of a source is told by
`Strips`.
-/

namespace RouteDepot

open RouteClass (beginsToken_of_isWordStart beginsToken_of_isDigit)

namespace QualifiedName

theorem isBlank_of_isPackagePart {c : Char} (continues : isPackagePart c) : Text.isBlank c = false := by
  rcases isPackagePart_cases continues with starts | digit | rfl
  · exact (beginsToken_of_isWordStart starts).1
  · exact (beginsToken_of_isDigit digit).1
  · decide

/-- The parts of a text that begins with the declaration of a package. -/
@[ext] structure Declaration where
  before : String
  between : String
  name : String
  after : String
  rest : String
  blank_before : ∀ c ∈ before.toList, Text.isBlank c
  blank_between : ∀ c ∈ between.toList, Text.isBlank c
  between_ne : between ≠ ""
  /-- A name begins with a letter or an underscore; digits and dots may follow as well. -/
  named : ∃ first part, name.toList = first :: part ∧ (first.isAlpha ∨ first = '_') ∧
    ∀ c ∈ part, c.isAlphanum ∨ c = '_' ∨ c = '.'
  blank_after : ∀ c ∈ after.toList, Text.isBlank c

namespace Declaration

/-- The whole text. -/
def text (d : Declaration) : String :=
  d.before ++ "package" ++ d.between ++ d.name ++ d.after ++ ";" ++ d.rest

/-- The characters behind the name. -/
def ending (d : Declaration) : List Char := d.after.toList ++ ';' :: d.rest.toList

theorem toList_text (d : Declaration) : d.text.toList =
    d.before.toList ++ (packageWord ++ (d.between.toList ++ (d.name.toList ++ d.ending))) := by
  simp [text, ending, packageWord]

/-- The name begins with a character that may begin a package name, and goes on with such as may continue it. -/
theorem exists_name (d : Declaration) : ∃ first part, d.name.toList = first :: part ∧ isPackageStart first ∧
    ∀ c ∈ part, isPackagePart c := by
  obtain ⟨first, part, shape, starts, inside⟩ := d.named
  refine ⟨first, part, shape, by simpa [isPackageStart] using starts, fun c member => ?_⟩
  simpa [isPackagePart, or_assoc] using inside c member

theorem exists_between (d : Declaration) : ∃ blank later, d.between.toList = blank :: later ∧ Text.isBlank blank := by
  have blank := d.blank_between
  cases shape : d.between.toList with
  | nil => exact absurd (String.toList_inj.mp shape) d.between_ne
  | cons c later =>
    rw [shape] at blank
    exact ⟨c, later, rfl, blank c List.mem_cons_self⟩

theorem isPackagePart_of_mem_name (d : Declaration) : ∀ c ∈ d.name.toList, isPackagePart c := by
  obtain ⟨first, part, shape, starts, inside⟩ := d.exists_name
  rw [shape]
  exact List.forall_mem_cons.mpr ⟨isPackagePart_of_isPackageStart starts, inside⟩

/-! ### Where the parts end -/

theorem stops_cons {p : Char → Bool} {first : Char} {later : List Char} (differs : p first = false) :
    ∀ c ∈ (first :: later).head?, p c = false := by
  simpa using differs

/-- The blanks in front of the word end at the word. -/
theorem word_stops (later : List Char) : ∀ c ∈ (packageWord ++ later).head?, Text.isBlank c = false :=
  stops_cons (by decide)

/-- The blanks between the word and the name end at the name. -/
theorem name_stops (d : Declaration) (later : List Char) :
    ∀ c ∈ (d.name.toList ++ later).head?, Text.isBlank c = false := by
  obtain ⟨first, part, shape, starts, _⟩ := d.exists_name
  rw [shape]
  exact stops_cons (isBlank_of_isPackagePart (isPackagePart_of_isPackageStart starts))

/-- The name ends at the blanks in front of the semicolon, or at the semicolon. -/
theorem ending_stops (d : Declaration) : ∀ c ∈ d.ending.head?, isPackagePart c = false := by
  have blank := d.blank_after
  unfold ending
  cases shape : d.after.toList with
  | nil => exact stops_cons (by decide)
  | cons c later =>
    rw [shape] at blank
    refine stops_cons (eq_false_of_ne_true fun continues => ?_)
    have dark := isBlank_of_isPackagePart continues
    rw [blank c List.mem_cons_self] at dark
    cases dark

/-- A text is in the grammar in at most one way. -/
theorem text_injective : Function.Injective text := by
  intro d d' same
  have same := congrArg String.toList same
  rw [toList_text, toList_text] at same
  obtain ⟨before, same⟩ :=
    append_inj_of_stops d.blank_before d'.blank_before (word_stops _) (word_stops _) same
  obtain ⟨between, same⟩ := append_inj_of_stops d.blank_between d'.blank_between (d.name_stops _) (d'.name_stops _)
    (List.append_cancel_left same)
  obtain ⟨name, same⟩ := append_inj_of_stops d.isPackagePart_of_mem_name d'.isPackagePart_of_mem_name d.ending_stops
    d'.ending_stops same
  obtain ⟨after, same⟩ :=
    append_inj_of_stops d.blank_after d'.blank_after (stops_cons (by decide)) (stops_cons (by decide)) same
  ext1
  · exact String.toList_inj.mp before
  · exact String.toList_inj.mp between
  · exact String.toList_inj.mp name
  · exact String.toList_inj.mp after
  · exact String.toList_inj.mp (List.cons.inj same).2

/-! ### The package of a text -/

/-- The package of a text in the grammar is the name in it. -/
theorem packageList?_text (d : Declaration) : packageList? d.text.toList = some d.name.toList := by
  obtain ⟨first, part, name, starts, inside⟩ := d.exists_name
  obtain ⟨blank, blanks, between, white⟩ := d.exists_between
  have word : d.text.toList.dropWhile Text.isBlank =
      packageWord ++ (d.between.toList ++ (d.name.toList ++ d.ending)) := by
    rw [toList_text]
    exact (takeWhile_append_of_stops d.blank_before (word_stops _)).2
  have skipped := (takeWhile_append_of_stops d.blank_between (d.name_stops d.ending)).2
  have closed : (d.ending.dropWhile Text.isBlank).head? = some ';' := by
    rw [ending, (takeWhile_append_of_stops d.blank_after (stops_cons (by decide))).2, List.head?_cons]
  have behind := Text.behind?_eq_some.mpr word
  obtain ⟨continued, ended⟩ := takeWhile_append_of_stops inside d.ending_stops
  rw [between, name, List.cons_append, List.cons_append] at skipped behind
  simp [packageList?, behind, skipped, white, starts, continued, ended, closed, name]

/-- A declared package is the name in a text that is in the grammar. -/
theorem exists_of_packageList? {content name : List Char} (found : packageList? content = some name) :
    ∃ d : Declaration, d.text.toList = content ∧ d.name.toList = name := by
  obtain ⟨blank, behind, first, part, rest, more, word, white, begins, starts, inside, ends, rfl⟩ :=
    eq_of_packageList? found
  have blanks (cs : List Char) : ∀ c ∈ cs.takeWhile Text.isBlank, Text.isBlank c := fun _ => List.mem_takeWhile_imp
  refine ⟨{
    before := String.ofList (content.takeWhile Text.isBlank)
    between := String.ofList ((blank :: behind).takeWhile Text.isBlank)
    name := String.ofList (first :: part)
    after := String.ofList (rest.takeWhile Text.isBlank)
    rest := String.ofList more
    blank_before := by simpa only [String.toList_ofList] using blanks content
    blank_between := by simpa only [String.toList_ofList] using blanks (blank :: behind)
    between_ne := by
      rw [List.takeWhile_cons_of_pos white, Ne, ← String.toList_inj, String.toList_ofList]
      exact List.cons_ne_nil _ _
    named := by
      refine ⟨first, part, String.toList_ofList, by simpa [isPackageStart] using starts, fun c member => ?_⟩
      simpa [isPackagePart, or_assoc] using inside c member
    blank_after := by simpa only [String.toList_ofList] using blanks rest }, ?_, String.toList_ofList⟩
  simp only [toList_text, ending, String.toList_ofList]
  rw [← ends, List.takeWhile_append_dropWhile, List.cons_append, ← begins, List.takeWhile_append_dropWhile, ← word,
    List.takeWhile_append_dropWhile]

end Declaration

/-- The package of a text is the name in its declaration. -/
theorem package?_eq_some_iff {content package : String} :
    package? content = some package ↔ ∃ d : Declaration, d.text = content ∧ d.name = package := by
  constructor
  · intro declared
    obtain ⟨name, found, rfl⟩ := Option.map_eq_some_iff.mp declared
    obtain ⟨d, text, rfl⟩ := Declaration.exists_of_packageList? found
    exact ⟨d, String.toList_inj.mp text, String.ofList_toList.symm⟩
  · rintro ⟨d, rfl, rfl⟩
    rw [package?, d.packageList?_text, Option.map_some, String.ofList_toList]

/-- Without a declaration there is no package. -/
theorem package?_eq_none_iff {content : String} : package? content = none ↔ ∀ d : Declaration, d.text ≠ content := by
  rw [Option.eq_none_iff_forall_ne_some]
  constructor
  · intro undeclared d same
    exact undeclared d.name (package?_eq_some_iff.mpr ⟨d, same, rfl⟩)
  · intro absent package declared
    obtain ⟨d, same, _⟩ := package?_eq_some_iff.mp declared
    exact absent d same

/-! ### Behind the semicolon -/

/-- What stands in front of the semicolon of a declaration. -/
def Declaration.front (d : Declaration) : String := d.before ++ "package" ++ d.between ++ d.name ++ d.after

theorem Declaration.text_eq (d : Declaration) : d.text = d.front ++ ";" ++ d.rest := rfl

theorem Declaration.semicolon_notMem_front (d : Declaration) : ∀ c ∈ d.front.toList, (c != ';') = true := by
  have blank : Text.isBlank ';' = false := by decide
  have part : isPackagePart ';' = false := by decide
  intro c member
  simp only [front, String.toList_append, List.mem_append] at member
  rw [bne_iff_ne]
  rintro rfl
  rcases member with (((inBefore | inWord) | inBetween) | inName) | inAfter
  · exact absurd (d.blank_before _ inBefore) (by simp [blank])
  · revert inWord
    decide
  · exact absurd (d.blank_between _ inBetween) (by simp [blank])
  · exact absurd (d.isPackagePart_of_mem_name _ inName) (by simp [part])
  · exact absurd (d.blank_after _ inAfter) (by simp [blank])

/-- Nothing behind the first semicolon makes a package. -/
theorem package?_of_package? {front rest rest' package : String} (first : ';' ∉ front.toList)
    (declared : package? (front ++ ";" ++ rest) = some package) : package? (front ++ ";" ++ rest') = some package := by
  obtain ⟨d, same, rfl⟩ := package?_eq_some_iff.mp declared
  have noSemicolon : ∀ c ∈ front.toList, (c != ';') = true := fun c member => by
    rw [bne_iff_ne]
    rintro rfl
    exact first member
  have same : d.front.toList ++ (';' :: d.rest.toList) = front.toList ++ (';' :: rest.toList) := by
    simpa [d.text_eq] using congrArg String.toList same
  obtain ⟨fronts, _⟩ := append_inj_of_stops d.semicolon_notMem_front noSemicolon
    (Declaration.stops_cons (by decide)) (Declaration.stops_cons (by decide)) same
  refine package?_eq_some_iff.mpr ⟨{ d with rest := rest' }, ?_, rfl⟩
  rw [← String.toList_inj.mp fronts]
  rfl

/-! ### Suffixes -/

/-- What a suffix leaves of a name: what stands in front of it at the end of the name, and else the whole name. -/
def Strips (suffix name stem : String) : Prop :=
  name = stem ++ suffix ∨ stem = name ∧ ∀ other, name ≠ other ++ suffix

theorem strips_stripSuffix (suffix name : String) : Strips suffix name (stripSuffix suffix name) := by
  unfold stripSuffix
  split
  · next stem found =>
    have reversed := congrArg List.reverse (Text.behind?_eq_some.mp found)
    left
    rw [← String.toList_inj]
    simpa using reversed
  · next absent =>
    refine .inr ⟨rfl, fun other same => ?_⟩
    have found : Text.behind? suffix.toList.reverse name.toList.reverse = some other.toList.reverse := by
      rw [Text.behind?_eq_some, same]
      simp
    cases absent.symm.trans found

/-- Names are derived by the grammar. The package of a text is the name in its declaration, which is in the grammar in
one way only, and what stands behind the first semicolon does not count. The name of a source without its suffix, which
is removed once and only at the end, is put behind the package if there is one. -/
theorem determine_by_grammar :
    (∀ content package, package? content = some package ↔ ∃ d : Declaration, d.text = content ∧ d.name = package) ∧
    (∀ d d' : Declaration, d.text = d'.text → d = d') ∧
    (∀ front rest rest' : String, ';' ∉ front.toList →
      package? (front ++ ";" ++ rest) = package? (front ++ ";" ++ rest')) ∧
    ∀ name content suffix, ∃ stem, Strips suffix name stem ∧
      (∀ d : Declaration, d.text = content → determine name content suffix = d.name ++ "." ++ stem) ∧
      ((∀ d : Declaration, d.text ≠ content) → determine name content suffix = stem) := by
  refine ⟨fun _ _ => package?_eq_some_iff, fun _ _ same => Declaration.text_injective same,
    fun front rest rest' first => ?_, fun name content suffix => ⟨_, strips_stripSuffix suffix name, ?_, ?_⟩⟩
  · exact Option.ext fun package => ⟨package?_of_package? first, package?_of_package? first⟩
  · rintro d rfl
    rw [determine, package?_eq_some_iff.mpr ⟨d, rfl, rfl⟩]
  · intro absent
    rw [determine, package?_eq_none_iff.mpr absent]

/-- A declaration among blanks, with another one behind its semicolon. -/
def Declaration.spaced : Declaration where
  before := " "
  between := "\n\t"
  name := "org.acme.v1"
  after := " "
  rest := " package other;"
  blank_before := List.all_eq_true.mp (by decide)
  blank_between := List.all_eq_true.mp (by decide)
  between_ne := by decide
  named := ⟨'o', "rg.acme.v1".toList, by decide, by decide, List.all_iff_forall_prop.mp (by decide)⟩
  blank_after := List.all_eq_true.mp (by decide)

/-- Only the last suffix is removed, and only the first declaration counts. -/
theorem determine_by_grammar_spaced :
    Declaration.spaced.text = " package\n\torg.acme.v1 ; package other;" ∧
      determine "Api.java.java" Declaration.spaced.text ".java" = "org.acme.v1.Api.java" := by
  obtain ⟨_, _, _, derived⟩ := determine_by_grammar
  obtain ⟨stem, strips, declared, _⟩ := derived "Api.java.java" Declaration.spaced.text ".java"
  refine ⟨rfl, ?_⟩
  rw [declared Declaration.spaced rfl]
  rcases strips with same | ⟨_, none⟩
  · have same : "Api.java".toList ++ ".java".toList = stem.toList ++ ".java".toList := by
      rw [← String.toList_append, ← String.toList_append, ← same]
      rfl
    rw [← String.toList_inj.mp (List.append_cancel_right same)]
    rfl
  · exact absurd rfl (none "Api.java")

end QualifiedName

end RouteDepot
