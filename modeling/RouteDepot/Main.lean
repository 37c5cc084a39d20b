import RouteDepot.CommandLine.Run

/-! # The command line program

Collects what a run may need of the system, its variables and files, and prints what comes of the run.
-/

namespace RouteDepot.CommandLine

/-- The fault that stands behind an error of the system. -/
def faultOf : IO.Error → FileFault
  | .alreadyExists _ code reason | .otherError code reason | .resourceBusy code reason
  | .resourceVanished code reason | .unsupportedOperation code reason | .hardwareFault code reason
  | .unsatisfiedConstraints code reason | .illegalOperation code reason | .protocolError code reason
  | .timeExpired code reason | .interrupted _ code reason | .noFileOrDirectory _ code reason
  | .invalidArgument _ code reason | .permissionDenied _ code reason | .resourceExhausted _ code reason
  | .inappropriateType _ code reason | .noSuchThing _ code reason =>
    match code.toNat with
    | 2 => .missing
    | 20 => .notDirectory
    | 21 => .isDirectory
    | 36 => .nameTooLong
    | other => .other other reason
  | .unexpectedEof => .other 0 "unexpected end of file"
  | .userError reason => .other 0 reason

/-- What is read at a path. -/
def readPath (path : String) : IO (Except FileFault (List UInt8)) := do
  if path.toList.contains '\x00' then return .error .zeroInPath
  match ← (IO.FS.readBinFile path).toBaseIO with
  | .ok bytes => return .ok bytes.toList
  | .error error => return .error (faultOf error)

/-- What is read at each of several paths. -/
def readPaths (paths : List String) : IO (List (String × Except FileFault (List UInt8))) :=
  paths.mapM fun path => return (path, ← readPath path)

/-- The variable in an entry of the environment. -/
def nameAndValueOf? (entry : List UInt8) : Option (String × String) :=
  (Text.ofUtf8 entry).toOption.bind (Text.cut? '=')

/-- The variables of the process; of two with one name the first counts. -/
def processEnvironment : IO Environment := do
  match ← readPath "/proc/self/environ" with
  | .ok bytes => return .ofList ((bytes.splitOn 0).filterMap nameAndValueOf?).reverse
  | .error _ => return .empty

/-- The surroundings of the process as far as a run with some arguments may look at them. -/
def processSurroundings (arguments : List String) : IO Surroundings := do
  let directory ← IO.currentDir
  let directoriesAbove := (directory.toString.toList.filter (· == '/')).length
  let variableFiles ← readPaths (VariableFile.candidates directoriesAbove)
  let lookup (found : List (String × Except FileFault (List UInt8))) (path : String) :
      Except FileFault (List UInt8) := (found.lookup path).getD (.error .missing)
  let near : Surroundings :=
    { environment := ← processEnvironment, read := lookup variableFiles, directoriesAbove }
  let files ← readPaths (paths near arguments)
  return { near with read := lookup (variableFiles ++ files) }

/-- Prints what comes of a run. -/
def Outcome.print (o : Outcome) : IO Unit := do
  match o.output with
  | .nothing => pure ()
  | .lines texts => texts.forM fun text => IO.println text
  | .json value => IO.println value.sorted.pretty
  if let some error := o.error then
    error.printed.forM fun text => IO.eprintln text

end RouteDepot.CommandLine

open RouteDepot.CommandLine in
/-- Runs the command line and gives its exit code. -/
def main (arguments : List String) : IO UInt32 := do
  let outcome := run (← processSurroundings arguments) arguments
  outcome.print
  return outcome.exitCode
