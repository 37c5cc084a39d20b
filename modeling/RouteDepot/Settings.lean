import RouteDepot.Surroundings
import RouteDepot.Text.Blank
import RouteDepot.Text.Uppercase
import RouteDepot.Text.Utf8
import RouteDepot.Toml.Flat

/-! # Settings

What a run is told by environment variables. Under a profile, a variable whose name begins with the profile
comes before the one without it; empty variables count as absent.
-/

namespace RouteDepot

/-- What a run is told: its sources, where to look for them, and the properties of its context. -/
structure Settings where
  /-- The profile in capitals, or the empty text. -/
  profile : String
  contextName : String
  /-- The URIs of sources in the order of loading. -/
  routes : List String
  /-- The directories that sources without a place of their own are looked for in. -/
  classpath : List String
  /-- The path of the properties. -/
  propertiesFile : Option String
  deriving DecidableEq, Repr

namespace Settings

/-- The variable that names the profile. -/
def profileVariable : String := "SWITCHYARD_PROFILE"

/-- The name of a context that is given none. -/
def defaultContextName : String := "switchyard"

/-- The value of a variable that is not empty. -/
def nonEmptyValue? (environment : Environment) (name : String) : Option String :=
  (environment.value? name).filter (!·.isEmpty)

/-- The value of a setting under a profile. -/
def lookup? (environment : Environment) (profile name : String) : Option String :=
  let profiled := if profile.isEmpty then none else nonEmptyValue? environment (profile ++ "_" ++ name)
  profiled.or (nonEmptyValue? environment name)

/-- The settings under a profile, which is written in capitals first. -/
def ofProfile (environment : Environment) (profile : String) : Settings :=
  let profile := Text.upper profile
  let lookup? := lookup? environment profile
  { profile
    contextName := (lookup? "SWITCHYARD_CONTEXT_NAME").getD defaultContextName
    routes :=
      match lookup? "SWITCHYARD_ROUTES" with
      | some uris => ((Text.pieces ',' uris).map Text.trim).filter (!·.isEmpty)
      | none => []
    classpath := ((lookup? "SWITCHYARD_CLASSPATH").map (Text.pieces ':')).getD []
    propertiesFile := lookup? "SWITCHYARD_PROPERTIES" }

/-- The settings under the profile that a variable names. -/
def ofEnvironment (environment : Environment) : Settings :=
  ofProfile environment ((environment.value? profileVariable).getD "")

/-- How the profile is shown. -/
def profileLabel (s : Settings) : String := if s.profile.isEmpty then "default" else s.profile

/-- What keeps properties from being read. -/
inductive PropertiesFault where
  | unreadable (fault : FileFault)
  | notText
  | malformed
  deriving DecidableEq, Repr

/-- The wording of what keeps properties from being read. -/
def PropertiesFault.message : PropertiesFault → String
  | .unreadable fault => s!"IO error: {fault.message}"
  | .notText => "IO error: stream did not contain valid UTF-8"
  | .malformed => "properties parse error"

/-- The properties in the file that settings name; without a file there are none. -/
def properties (s : Settings) (surroundings : Surroundings) : Except PropertiesFault Properties :=
  match s.propertiesFile with
  | none => .ok .empty
  | some path =>
    match surroundings.read path with
    | .error fault => .error (.unreadable fault)
    | .ok bytes =>
      match Text.ofUtf8 bytes with
      | .error _ => .error .notText
      | .ok text =>
        match Toml.properties? text with
        | some properties => .ok properties
        | none => .error .malformed

end Settings

end RouteDepot
