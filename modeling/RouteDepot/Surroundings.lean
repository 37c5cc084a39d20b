import RouteDepot.Dictionary
import RouteDepot.Text.Cut

/-! # Surroundings

What a program sees of the system that it runs on: environment variables and files.
-/

namespace RouteDepot

/-- Why a file cannot be read. -/
inductive FileFault where
  | missing
  | notDirectory
  | isDirectory
  | nameTooLong
  | zeroInPath
  | other (code : Nat) (reason : String)
  deriving DecidableEq, Repr

/-- The wording of a fault, with the number that the system gives it. -/
def FileFault.message : FileFault → String
  | .missing => "No such file or directory (os error 2)"
  | .notDirectory => "Not a directory (os error 20)"
  | .isDirectory => "Is a directory (os error 21)"
  | .nameTooLong => "File name too long (os error 36)"
  | .zeroInPath => "file name contained an unexpected NUL byte"
  | .other code reason => s!"{reason} (os error {code})"

/-- Environment variables by name. -/
abbrev Environment := Dictionary String

/-- The text behind the first entry, written `name=value`, that begins with a name and an equals sign. -/
def Environment.value? (environment : Environment) (name : String) : Option String :=
  if name.isEmpty then none
  else (environment.entries.findSome? fun (key, value) =>
    Text.behind? (name ++ "=").toList (key ++ "=" ++ value).toList).map String.ofList

/-- Environment variables, and what is read at a path. -/
structure Surroundings where
  environment : Environment := .empty
  read : String → Except FileFault (List UInt8)
  /-- The number of directories on the way from the root to the present one. -/
  directoriesAbove : Nat := 0

namespace Surroundings

/-- Whether a file stands at a path. -/
def isFile (s : Surroundings) (path : String) : Bool := (s.read path).isOk

end Surroundings

end RouteDepot
