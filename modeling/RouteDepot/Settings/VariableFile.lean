import RouteDepot.Settings.VariableFile.Assignment
import RouteDepot.Settings.VariableFile.Line

/-! # Variable files

A file may give values to variables that have none. It is read line by line, and each line sees the variables of
those before it; reading ends without a complaint at the first line that cannot be understood.
-/

namespace RouteDepot.VariableFile

/-- The name of a variable file. -/
def fileName : String := ".env"

/-- The variables with the values added that lines give to new names. -/
def loadLines (environment : Environment) : List (Option (List Char)) → Environment
  | [] | none :: _ => environment
  | some line :: later =>
    match entry? environment line with
    | none => environment
    | some .nothing => loadLines environment later
    | some (.assign name value) =>
      loadLines (if (environment.value? name).isSome then environment else environment.put name value) later

/-- The variables with the values added that a file gives to new names. -/
def load (environment : Environment) (bytes : List UInt8) : Environment := loadLines environment (lines bytes)

/-- The paths at which the file may stand: in the present directory, and in the ones above it. -/
def candidates (directoriesAbove : Nat) : List String :=
  (List.range (directoriesAbove + 1)).map fun up => String.join (List.replicate up "../") ++ fileName

end RouteDepot.VariableFile

namespace RouteDepot.Surroundings

/-- Whether something other than a directory stands at a path. -/
def isTaken (s : Surroundings) (path : String) : Bool :=
  match s.read path with
  | .error .missing | .error .isDirectory => false
  | .ok _ | .error _ => true

/-- The surroundings with the variables added of the nearest variable file. -/
def withVariableFile (s : Surroundings) : Surroundings :=
  match (VariableFile.candidates s.directoriesAbove).find? s.isTaken with
  | none => s
  | some path =>
    match s.read path with
    | .ok bytes => { s with environment := VariableFile.load s.environment bytes }
    | .error _ => s

end RouteDepot.Surroundings
