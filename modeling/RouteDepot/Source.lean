import RouteDepot.Text.Blank
import RouteDepot.Text.Cut

/-! # Sources

A source names a text of route code: where it is found, what it is called, and which language it is written in.
-/

namespace RouteDepot

/-- A text of route code by name, location and language. -/
structure Source where
  name : String
  location : String
  language : String
  deriving DecidableEq, Repr

/-- Why a text names no source. -/
inductive SourceError where
  | empty
  | missingLanguage (uri : String)
  deriving DecidableEq, Repr

/-- The wording of what is wrong with the name of a source. -/
def SourceError.message : SourceError → String
  | .empty => "source location must not be empty"
  | .missingLanguage uri =>
    s!"cannot determine language of source '{uri}': no language parameter and no file extension"

namespace Source

/-- The location and the language, as messages show a source. -/
def display (s : Source) : String := s!"{s.location} ({s.language})"

/-- A text that is not empty. -/
def nonEmpty? (s : String) : Option String := if s.isEmpty then none else some s

/-- The value of the first `language` parameter of a query. -/
def languageParameter? (query : String) : Option String :=
  (((Text.pieces '&' query).filterMap (Text.cut? '=')).find? (·.1 == "language")).map (·.2)

/-- The characters behind the last slash or backslash. -/
def lastSegment (path : List Char) : List Char :=
  (path.reverse.takeWhile fun c => c != '/' && c != '\\').reverse

/-- The name of the source at a location: the last segment of its path, or the whole path when that is empty. -/
def nameOf (location : String) : String :=
  let path := ((Text.cut? ':' location).map (·.2)).getD location
  (nonEmpty? (String.ofList (lastSegment path.toList))).getD path

/-- The text behind the last dot of a name. -/
def extension? (name : String) : Option String := (Text.cutLast? '.' name).map (·.2)

/-- The source that a URI names: a location, and perhaps a query behind a question mark. The language is the
`language` parameter of the query, or else the extension of the name. -/
def ofUri (uri : String) : Except SourceError Source := do
  let uri := Text.trim uri
  let (location, query) :=
    match Text.cut? '?' uri with
    | some (location, query) => (location, some query)
    | none => (uri, none)
  if location.isEmpty then throw .empty
  let name := nameOf location
  match ((query.bind languageParameter?).bind nonEmpty?).or ((extension? name).bind nonEmpty?) with
  | some language => return { name, location, language }
  | none => throw (.missingLanguage uri)

end Source

end RouteDepot
