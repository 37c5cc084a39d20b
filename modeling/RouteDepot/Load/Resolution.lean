import RouteDepot.Source
import RouteDepot.Surroundings
import RouteDepot.Text.Utf8

/-! # Finding the text of a source

The location of a source says where its text stands: in a file, in a file below one of the directories of the
classpath, in an environment variable, or in the location itself.
-/

namespace RouteDepot

/-- Why the text of a source cannot be had. -/
inductive ResolutionError where
  | unsupportedScheme (scheme location : String)
  | notFound (location : String)
  | missingVariable (name : String)
  | unreadable (location : String) (fault : FileFault)
  | notText (location : String) (fault : Text.Utf8Fault)
  deriving DecidableEq, Repr

/-- The wording of a failed resolution. -/
def ResolutionError.message : ResolutionError → String
  | .unsupportedScheme scheme location => s!"unsupported resource scheme '{scheme}' in '{location}'"
  | .notFound location => s!"resource not found: {location}"
  | .missingVariable name => s!"environment variable '{name}' is not set"
  | .unreadable location fault => s!"failed to read '{location}': {fault.message}"
  | .notText location fault => s!"content of '{location}' is not valid UTF-8: {fault.message}"

/-- The places where texts of sources are found. -/
structure Resolver where
  surroundings : Surroundings
  /-- The directories of the classpath in the order of the search. -/
  classpath : List String := []

namespace Resolver

/-- A path below a directory; the empty text stands for the present directory. -/
def below (directory name : String) : String :=
  if directory.isEmpty || directory.toList.getLast? = some '/' then directory ++ name
  else directory ++ "/" ++ name

/-- The paths at which a name may stand below the directories of a classpath; slashes in front of the name do not
count, and nothing is left of a name made of slashes alone. -/
def candidates (classpath : List String) (name : String) : List String :=
  let relative := String.ofList (name.toList.dropWhile (· == '/'))
  if relative.isEmpty then [] else classpath.map (below · relative)

/-- The path that a `file` location means: behind two slashes, if it begins with them. -/
def filePath (rest : String) : String :=
  ((Text.behind? ['/', '/'] rest.toList).map String.ofList).getD rest

/-- The bytes of the file at a path that a location means. -/
def fileContent (r : Resolver) (location path : String) : Except ResolutionError (List UInt8) :=
  match r.surroundings.read path with
  | .ok bytes => .ok bytes
  | .error .missing => .error (.notFound location)
  | .error fault => .error (.unreadable location fault)

/-- The scheme of a location and what stands behind it; a location without a scheme is looked for on the
classpath. -/
def schemeAndRest (location : String) : String × String :=
  (Text.cut? ':' location).getD ("classpath", location)

/-- The paths at which the text at a location may stand. -/
def paths (classpath : List String) (location : String) : List String :=
  match schemeAndRest location with
  | ("file", rest) => [filePath rest]
  | ("classpath", rest) => candidates classpath rest
  | _ => []

/-- The text of bytes that stand at a location. -/
def textOfBytes (location : String) (bytes : List UInt8) : Except ResolutionError String :=
  (Text.ofUtf8 bytes).mapError (.notText location)

/-- The text at a location. -/
def content (r : Resolver) (location : String) : Except ResolutionError String :=
  let (scheme, rest) := schemeAndRest location
  match scheme with
  | "file" => r.fileContent location (filePath rest) >>= textOfBytes location
  | "classpath" =>
    match (candidates r.classpath rest).find? r.surroundings.isFile with
    | some path => r.fileContent location path >>= textOfBytes location
    | none => .error (.notFound location)
  | "env" =>
    match r.surroundings.environment.value? rest with
    | some text => .ok text
    | none => .error (.missingVariable rest)
  | "inline" => .ok rest
  | other => .error (.unsupportedScheme other location)

end Resolver

end RouteDepot
