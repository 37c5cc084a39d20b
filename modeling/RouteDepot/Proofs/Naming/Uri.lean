import RouteDepot.Proofs.Cutting
import RouteDepot.Proofs.Trimming
import RouteDepot.Source

/-! # URIs in their parts

A URI is put together from a scheme, a directory, a name and parameters, and the source that it names is told from these
parts: no separator inside one part is taken for one between two parts.
-/

namespace RouteDepot

open Source

/-- A URI in its parts. The path is a directory, up to and with its last slash or backslash, and a name. -/
structure Uri where
  scheme : Option String
  directory : String
  name : String
  query : Option (List (String × String))

namespace Uri

variable {u : Uri} {pairs : List (String × String)} {language : String}

def path (u : Uri) : String := u.directory ++ u.name

/-- The path, behind its scheme and a colon if there is a scheme. -/
def location (u : Uri) : String :=
  match u.scheme with
  | some scheme => scheme ++ ":" ++ u.path
  | none => u.path

/-- A key and a value with an equals sign between them. -/
def parameterText (parameter : String × String) : String := parameter.1 ++ "=" ++ parameter.2

/-- Parameters with ampersands between them. -/
def queryText (pairs : List (String × String)) : String := "&".intercalate (pairs.map parameterText)

/-- The location, and the parameters behind a question mark if there is a query. -/
def text (u : Uri) : String :=
  match u.query with
  | some pairs => u.location ++ "?" ++ queryText pairs
  | none => u.location

def parameters (u : Uri) : List (String × String) := u.query.getD []

/-- No ampersand or equals sign stands in a key, and no ampersand in a value. -/
def Separable (pairs : List (String × String)) : Prop :=
  ∀ pair ∈ pairs, '&' ∉ pair.1.toList ∧ '=' ∉ pair.1.toList ∧ '&' ∉ pair.2.toList

/-- The parts of a URI that can be told apart: a colon belongs to the path only behind a scheme, a question mark only to
the query, slashes only to the directory, and no blank stands at the ends. -/
structure WellFormed (u : Uri) : Prop where
  scheme : ∀ scheme ∈ u.scheme, ':' ∉ scheme.toList
  path : u.scheme = none → ':' ∉ u.path.toList
  directory : ∀ c ∈ u.directory.toList.getLast?, c = '/' ∨ c = '\\'
  named : u.name ≠ ""
  name : ∀ c ∈ u.name.toList, c ≠ '/' ∧ c ≠ '\\'
  location : '?' ∉ u.location.toList
  parameters : Separable u.parameters
  begins : ∀ c ∈ u.text.toList.head?, Text.isBlank c = false
  ends : ∀ c ∈ u.text.toList.getLast?, Text.isBlank c = false

/-- The first parameter with a key has a value. -/
def FirstValue (pairs : List (String × String)) (key value : String) : Prop :=
  ∃ before after, pairs = before ++ (key, value) :: after ∧ ∀ pair ∈ before, pair.1 ≠ key

/-- The language that a URI says: the value of its first parameter for it, or if there is none or an empty one, what
stands behind the last dot of the name. -/
inductive HasLanguage (u : Uri) : String → Prop
  | parameter {language : String} (first : FirstValue u.parameters "language" language) (filled : language ≠ "") :
      HasLanguage u language
  | extension {stem language : String} (unsaid : ∀ value, FirstValue u.parameters "language" value → value = "")
      (name : u.name = stem ++ "." ++ language) (last : '.' ∉ language.toList) (filled : language ≠ "") :
      HasLanguage u language

/-- The value of the first parameter with a key. -/
def firstValue? (pairs : List (String × String)) (key : String) : Option String :=
  (pairs.find? (·.1 == key)).map (·.2)

/-! ### The query -/

theorem cut?_parameterText {pair : String × String} (first : '=' ∉ pair.1.toList) :
    Text.cut? '=' (parameterText pair) = some pair :=
  Text.cut?_of_split (by simp [parameterText]) first

/-- The parameters of a query are found in its text. -/
theorem filterMap_pieces_queryText (separable : Separable pairs) :
    (Text.pieces '&' (queryText pairs)).filterMap (Text.cut? '=') = pairs := by
  have apart : ∀ piece ∈ pairs.map parameterText, '&' ∉ piece.toList := by
    intro piece member
    obtain ⟨pair, given, rfl⟩ := List.mem_map.mp member
    obtain ⟨key, _, value⟩ := separable pair given
    simp [parameterText, key, value]
  have read : ∀ pair ∈ pairs, Text.cut? '=' (parameterText pair) = some pair :=
    fun pair member => cut?_parameterText (separable pair member).2.1
  cases pairs with
  | nil => rfl
  | cons first later =>
    rw [List.map_cons] at apart
    rw [queryText, List.map_cons, Text.pieces_intercalate rfl apart, ← List.map_cons, List.filterMap_map]
    exact (List.filterMap_congr read).trans List.filterMap_some

theorem languageParameter?_queryText (separable : Separable pairs) :
    languageParameter? (queryText pairs) = firstValue? pairs "language" := by
  rw [languageParameter?, filterMap_pieces_queryText separable, firstValue?]

/-! ### The location -/

theorem lastSegment_append {directory name : List Char} (ends : ∀ c ∈ directory.getLast?, c = '/' ∨ c = '\\')
    (plain : ∀ c ∈ name, c ≠ '/' ∧ c ≠ '\\') : lastSegment (directory ++ name) = name := by
  have inside : ∀ c ∈ name.reverse, (c != '/' && c != '\\') = true := by
    intro c member
    obtain ⟨noSlash, noBackslash⟩ := plain c (List.mem_reverse.mp member)
    simp [noSlash, noBackslash]
  have stops : ∀ c ∈ directory.reverse.head?, (c != '/' && c != '\\') = false := by
    intro c last
    rw [List.head?_reverse] at last
    rcases ends c last with rfl | rfl <;> rfl
  rw [lastSegment, List.reverse_append, (takeWhile_append_of_stops inside stops).1, List.reverse_reverse]

theorem path_of_location (wellFormed : u.WellFormed) :
    ((Text.cut? ':' u.location).map (·.2)).getD u.location = u.path := by
  have scheme := wellFormed.scheme
  have path := wellFormed.path
  unfold location
  cases given : u.scheme with
  | none => simp only [Text.cut?_eq_none (path given), Option.map_none, Option.getD_none]
  | some name =>
    have cut : Text.cut? ':' (name ++ ":" ++ u.path) = some (name, u.path) :=
      Text.cut?_of_split (by simp) (scheme name given)
    simp only [cut, Option.map_some, Option.getD_some]

/-- The name of a source is the name in its location. -/
theorem nameOf_location (wellFormed : u.WellFormed) : nameOf u.location = u.name := by
  have segment : lastSegment u.path.toList = u.name.toList := by
    rw [path, String.toList_append]
    exact lastSegment_append wellFormed.directory wellFormed.name
  have named : u.name.isEmpty = false := by simpa using wellFormed.named
  simp only [nameOf, path_of_location wellFormed, segment, String.ofList_toList, nonEmpty?, named, Option.getD_some,
    Bool.false_eq_true, if_false]

theorem location_ne_empty (wellFormed : u.WellFormed) : u.location ≠ "" := by
  have filled : u.path ≠ "" := by
    rw [path, Ne, String.append_eq_empty_iff]
    exact fun empty => wellFormed.named empty.2
  unfold location
  cases u.scheme with
  | none => exact filled
  | some scheme =>
    intro empty
    exact filled (String.append_eq_empty_iff.mp empty).2

/-! ### The language -/

theorem nonEmpty?_eq_some_iff {s : String} : nonEmpty? s = some language ↔ s = language ∧ language ≠ "" := by
  unfold nonEmpty?
  split
  · next empty =>
    rw [String.isEmpty_iff] at empty
    simp [empty, eq_comm]
  · next filled =>
    rw [String.isEmpty_iff] at filled
    constructor
    · rintro ⟨⟩
      exact ⟨rfl, filled⟩
    · rintro ⟨rfl, _⟩
      rfl

theorem firstValue?_eq_some_iff {key value : String} :
    firstValue? pairs key = some value ↔ FirstValue pairs key value := by
  rw [firstValue?, Option.map_eq_some_iff]
  constructor
  · rintro ⟨⟨key', _⟩, found, rfl⟩
    obtain ⟨same, before, after, split, others⟩ := List.find?_eq_some_iff_append.mp found
    obtain rfl : key' = key := by simpa using same
    exact ⟨before, after, split, fun pair member => by simpa using others pair member⟩
  · rintro ⟨before, after, split, others⟩
    refine ⟨(key, value), List.find?_eq_some_iff_append.mpr ⟨by simp, before, after, split, ?_⟩, rfl⟩
    exact fun pair member => by simpa using others pair member

theorem extension?_eq_some_iff {name : String} :
    extension? name = some language ↔ ∃ stem, name = stem ++ "." ++ language ∧ '.' ∉ language.toList := by
  rw [extension?, Option.map_eq_some_iff]
  constructor
  · rintro ⟨⟨stem, _⟩, found, rfl⟩
    obtain ⟨split, last⟩ := Text.cutLast?_eq_some found
    exact ⟨stem, String.toList_inj.mp (by simpa using split), last⟩
  · rintro ⟨stem, rfl, last⟩
    exact ⟨(stem, language), Text.cutLast?_of_split (by simp) last, rfl⟩

/-- The language that is read off the parts of a URI. -/
def language? (u : Uri) : Option String :=
  ((firstValue? u.parameters "language").bind nonEmpty?).or ((extension? u.name).bind nonEmpty?)

theorem language?_eq_some_iff : u.language? = some language ↔ u.HasLanguage language := by
  have said : (firstValue? u.parameters "language").bind nonEmpty? = some language ↔
      FirstValue u.parameters "language" language ∧ language ≠ "" := by
    simp [Option.bind_eq_some_iff, firstValue?_eq_some_iff, nonEmpty?_eq_some_iff]
  have unsaid : (firstValue? u.parameters "language").bind nonEmpty? = none ↔
      ∀ value, FirstValue u.parameters "language" value → value = "" := by
    simp [Option.bind_eq_none_iff, firstValue?_eq_some_iff, nonEmpty?, String.isEmpty_iff]
  have extension : (extension? u.name).bind nonEmpty? = some language ↔
      ∃ stem, u.name = stem ++ "." ++ language ∧ '.' ∉ language.toList ∧ language ≠ "" := by
    simp [Option.bind_eq_some_iff, extension?_eq_some_iff, nonEmpty?_eq_some_iff, and_assoc]
  rw [language?, Option.or_eq_some_iff, said, unsaid, extension]
  constructor
  · rintro (⟨first, filled⟩ | ⟨unsaid, stem, name, last, filled⟩)
    · exact .parameter first filled
    · exact .extension unsaid name last filled
  · rintro (⟨first, filled⟩ | ⟨unsaid, name, last, filled⟩)
    · exact .inl ⟨first, filled⟩
    · exact .inr ⟨unsaid, _, name, last, filled⟩

/-! ### The source -/

theorem trim_text (wellFormed : u.WellFormed) : Text.trim u.text = u.text := by
  rw [Text.trim, Text.trimList_eq_self wellFormed.begins wellFormed.ends, String.ofList_toList]

/-- A source is told from the trimmed text only. -/
theorem ofUri_congr {uri uri' : String} (same : Text.trim uri = Text.trim uri') : ofUri uri = ofUri uri' := by
  unfold ofUri
  rw [same]

/-- What a URI names, once its language is looked for. -/
def named (uri name location : String) : Option String → Except SourceError Source
  | some language => .ok { name, location, language }
  | none => .error (.missingLanguage uri)

theorem ofUri_of_cut {uri location query : String} (cut : Text.cut? '?' (Text.trim uri) = some (location, query))
    (filled : location ≠ "") :
    ofUri uri = named (Text.trim uri) (nameOf location) location
      (((languageParameter? query).bind nonEmpty?).or ((extension? (nameOf location)).bind nonEmpty?)) := by
  have filled : ¬location.isEmpty := by simpa using filled
  simp only [ofUri, cut, if_neg filled, Option.bind_some]
  generalize Option.or _ _ = language?
  cases language? <;> rfl

theorem ofUri_of_uncut {uri : String} (uncut : Text.cut? '?' (Text.trim uri) = none) (filled : Text.trim uri ≠ "") :
    ofUri uri = named (Text.trim uri) (nameOf (Text.trim uri)) (Text.trim uri)
      ((extension? (nameOf (Text.trim uri))).bind nonEmpty?) := by
  have filled : ¬(Text.trim uri).isEmpty := by simpa using filled
  simp only [ofUri, uncut, if_neg filled, Option.bind_none, Option.none_or]
  generalize Option.bind _ _ = language?
  cases language? <;> rfl

/-- The source of a URI has the name and the location that the URI was put together from. -/
theorem ofUri_text (wellFormed : u.WellFormed) : ofUri u.text = named u.text u.name u.location u.language? := by
  have trimmed := trim_text wellFormed
  have filled := location_ne_empty wellFormed
  have separable := wellFormed.parameters
  unfold parameters at separable
  unfold language? parameters
  cases given : u.query with
  | none =>
    have whole : u.text = u.location := by simp only [text, given]
    have uncut : Text.cut? '?' u.location = none := Text.cut?_eq_none wellFormed.location
    rw [whole] at trimmed ⊢
    have source := ofUri_of_uncut (trimmed.symm ▸ uncut) (trimmed.symm ▸ filled)
    rw [trimmed, nameOf_location wellFormed] at source
    exact source
  | some pairs =>
    have whole : u.text = u.location ++ "?" ++ queryText pairs := by simp only [text, given]
    have cut : Text.cut? '?' u.text = some (u.location, queryText pairs) :=
      Text.cut?_of_split (by simp [whole]) wellFormed.location
    rw [given, Option.getD_some] at separable
    have source := ofUri_of_cut (trimmed.symm ▸ cut) filled
    rw [trimmed, nameOf_location wellFormed, languageParameter?_queryText separable] at source
    exact source

/-- A well-formed URI names the source with the name, the location and the language that it was put together from; if it
says no language, it names no source, and this is said of the whole text; and blanks around any text make no
difference. -/
theorem ofUri_decomposes (wellFormed : u.WellFormed) :
    (∀ language, u.HasLanguage language →
      ofUri u.text = .ok { name := u.name, location := u.location, language }) ∧
    ((∀ language, ¬u.HasLanguage language) → ofUri u.text = .error (.missingLanguage u.text)) ∧
    ∀ text front back : String, (∀ c ∈ front.toList, Text.isBlank c) → (∀ c ∈ back.toList, Text.isBlank c) →
      ofUri (front ++ text ++ back) = ofUri text := by
  have source := ofUri_text wellFormed
  refine ⟨?_, ?_, ?_⟩
  · intro language said
    rw [source, language?_eq_some_iff.mpr said, named]
  · intro unsaid
    have silent : u.language? = none := Option.eq_none_iff_forall_ne_some.mpr fun language found =>
      unsaid language (language?_eq_some_iff.mp found)
    rw [source, silent, named]
  · intro text front back blankFront blankBack
    refine ofUri_congr ?_
    rw [Text.trim, Text.trim, String.toList_append, String.toList_append, Text.trimList_surrounded blankFront blankBack]

/-- A URI with separators in many parts, an empty parameter for the language, and a dotted name. -/
def adorned : Uri where
  scheme := some "classpath"
  directory := "a:b\\c/"
  name := "my.routes.groovy"
  query := some [("x?", "1=2"), ("language", ""), ("language", "xml")]

theorem adorned_wellFormed : adorned.WellFormed where
  scheme := by decide
  path := by decide
  directory := by
    have last : adorned.directory.toList.getLast? = some '/' := by decide
    simp [last]
  named := by decide
  name := by
    have plain : (adorned.name.toList.all fun c => c != '/' && c != '\\') = true := by decide
    simpa using List.all_eq_true.mp plain
  location := by decide
  parameters := by unfold Separable; decide
  begins := by
    have first : adorned.text.toList.head? = some 'c' := by decide
    rw [first]
    rintro _ ⟨⟩
    rfl
  ends := by
    have last : adorned.text.toList.getLast? = some 'l' := by decide
    rw [last]
    rintro _ ⟨⟩
    rfl

theorem ofUri_decomposes_adorned :
    adorned.WellFormed ∧ adorned.HasLanguage "groovy" ∧
      ofUri "classpath:a:b\\c/my.routes.groovy?x?=1=2&language=&language=xml" =
        .ok ⟨"my.routes.groovy", "classpath:a:b\\c/my.routes.groovy", "groovy"⟩ := by
  have text : adorned.text = "classpath:a:b\\c/my.routes.groovy?x?=1=2&language=&language=xml" := by decide
  have location : adorned.location = "classpath:a:b\\c/my.routes.groovy" := by decide
  have said : adorned.HasLanguage "groovy" := language?_eq_some_iff.mp (by decide)
  rw [← text, ← location]
  exact ⟨adorned_wellFormed, said, (ofUri_decomposes adorned_wellFormed).1 _ said⟩

end Uri

end RouteDepot
