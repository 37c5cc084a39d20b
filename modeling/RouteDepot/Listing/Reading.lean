import RouteDepot.Json.Reading
import RouteDepot.Listing

/-! # Reading listings

Bundles and REST configurations are read back from JSON values. A record is an object, or an array with the
values of all its fields in their order; absent texts may be null or missing, and everything else has to be
there.
-/

namespace RouteDepot

/-- The fields of a record by their names. -/
abbrev Record := List (String × Json)

/-- The record with given fields that a value is; of two fields with one name the last counts. -/
def Record.ofListing? (names : List String) : Json → Option Record
  | .obj fields => some fields.reverse
  | .arr items => if items.length = names.length then some (names.zip items) else none
  | _ => none

/-- The value of a field that has to be there. -/
def Record.required {α : Type} (r : Record) (name : String) (read : Json → Option α) : Option α :=
  (r.lookup name).bind read

/-- The value of a field that may be missing or null. -/
def Record.optional {α : Type} (r : Record) (name : String) (read : Json → Option α) :
    Option (Option α) :=
  match r.lookup name with
  | none | some .null => some none
  | some value => some <$> read value

/-- The text in a field that may be missing or null. -/
def Record.optionalText (r : Record) (name : String) : Option (Option String) := r.optional name Json.text?

/-- A list whose items are read one by one. -/
def listOfListing? {α : Type} (read : Json → Option α) (value : Json) : Option (List α) :=
  value.items?.bind (·.mapM read)

/-- The fields of an object whose values are read one by one. -/
def entriesOfListing? {α : Type} (read : Json → Option α) (value : Json) : Option (List (String × α)) :=
  value.fields?.bind (·.mapM fun (key, content) => (key, ·) <$> read content)

/-- A dictionary of texts. -/
def Dictionary.ofListing? (value : Json) : Option (Dictionary String) :=
  .ofList <$> entriesOfListing? Json.text? value

/-- Whether a value stands for nothing. -/
def isNothing : Json → Bool
  | .null => true
  | _ => false

/-- Whether a value inside a step stands for nothing: there an empty object does so too. -/
def isNothingInStep : Json → Bool
  | .null | .obj [] => true
  | _ => false

/-- The one of several values that a text names; an object with that name alone, and nothing in it, names it too. -/
def oneOfListing? {α : Type} (isNothing : Json → Bool) (all : List α) (name : α → String) : Json → Option α
  | .str word => all.find? (name · == word)
  | .obj [(word, content)] => if isNothing content then all.find? (name · == word) else none
  | _ => none

/-! ### Routes -/

/-- A clause. -/
def Clause.ofListing? (value : Json) : Option Clause := do
  let r ← Record.ofListing? ["language", "text"] value
  let language ← r.required "language"
    (oneOfListing? isNothingInStep [.constant, .simple, .header] ClauseLanguage.name)
  return ⟨language, ← r.required "text" Json.text?⟩

/-- The type of a step. -/
def Step.type? : Json → Option String
  | .arr (.str type :: _) => some type
  | value => (value.field? "type").bind Json.text?

/-- The names of the fields of steps of a type, and how such a step is read from them. -/
def Step.layout? (type : String) : Option (List String × (Record → Option Step)) :=
  let text (name : String) (r : Record) : Option String := r.required name Json.text?
  let expression (r : Record) : Option Clause := r.required "expression" Clause.ofListing?
  match type with
  | "to" => some (["uri"], fun r => send <$> text "uri" r)
  | "to_d" => some (["uri"], fun r => sendDynamic <$> text "uri" r)
  | "log" => some (["message"], fun r => log <$> text "message" r)
  | "set_body" => some (["expression"], fun r => setBody <$> expression r)
  | "set_header" => some (["name", "expression"], fun r => setHeader <$> text "name" r <*> expression r)
  | "remove_header" => some (["name"], fun r => removeHeader <$> text "name" r)
  | "transform" => some (["expression"], fun r => transform <$> expression r)
  | "filter" => some (["expression"], fun r => filter <$> expression r)
  | _ => none

/-- A step, whose type tells its fields. -/
def Step.ofListing? (value : Json) : Option Step := do
  let (names, read) ← Step.layout? (← Step.type? value)
  read (← Record.ofListing? ("type" :: names) value)

/-- A route. -/
def Route.ofListing? (value : Json) : Option Route := do
  let r ← Record.ofListing? ["id", "description", "from", "auto_startup", "steps"] value
  return {
    id := ← r.optionalText "id"
    description := ← r.optionalText "description"
    origin := ← r.required "from" Json.text?
    autoStartup := ← r.required "auto_startup" Json.flag?
    steps := ← r.required "steps" (listOfListing? Step.ofListing?) }

/-! ### REST services -/

/-- A verb. -/
def Verb.ofListing? (value : Json) : Option Verb := do
  let r ← Record.ofListing? ["method", "uri", "to", "description", "consumes", "produces"] value
  return {
    method := ← r.required "method" (oneOfListing? isNothing HttpMethod.all HttpMethod.name)
    uri := ← r.optionalText "uri"
    target := ← r.optionalText "to"
    description := ← r.optionalText "description"
    consumes := ← r.optionalText "consumes"
    produces := ← r.optionalText "produces" }

/-- A REST service. -/
def RestService.ofListing? (value : Json) : Option RestService := do
  let r ← Record.ofListing? ["path", "description", "consumes", "produces", "verbs"] value
  return {
    path := ← r.optionalText "path"
    description := ← r.optionalText "description"
    consumes := ← r.optionalText "consumes"
    produces := ← r.optionalText "produces"
    verbs := ← r.required "verbs" (listOfListing? Verb.ofListing?) }

/-! ### REST configurations -/

/-- The names of the fields of a REST configuration. -/
def restConfigurationFields : List String :=
  ["component", "host", "port", "scheme", "context_path", "api_context_path", "binding_mode", "enable_cors",
    "component_properties", "endpoint_properties", "consumer_properties", "data_format_properties"]

/-- A REST configuration as route code writes it. -/
def RestConfigurationDraft.ofListing? (value : Json) : Option RestConfigurationDraft := do
  let r ← Record.ofListing? restConfigurationFields value
  return {
    component := ← r.optionalText "component"
    host := ← r.optionalText "host"
    port := ← r.optionalText "port"
    scheme := ← r.optionalText "scheme"
    contextPath := ← r.optionalText "context_path"
    apiContextPath := ← r.optionalText "api_context_path"
    bindingMode := ← r.optionalText "binding_mode"
    enableCors := ← r.optionalText "enable_cors"
    componentProperties := ← r.required "component_properties" Dictionary.ofListing?
    endpointProperties := ← r.required "endpoint_properties" Dictionary.ofListing?
    consumerProperties := ← r.required "consumer_properties" Dictionary.ofListing?
    dataFormatProperties := ← r.required "data_format_properties" Dictionary.ofListing? }

/-- A port. -/
def Port.ofListing? (value : Json) : Option Port := do
  let n ← value.natural?
  if bound : n < portCount then some ⟨n, bound⟩ else none

/-- A REST configuration. -/
def RestConfiguration.ofListing? (value : Json) : Option RestConfiguration := do
  let r ← Record.ofListing? restConfigurationFields value
  return {
    component := ← r.optionalText "component"
    host := ← r.optionalText "host"
    port := ← r.optional "port" Port.ofListing?
    scheme := ← r.required "scheme" (oneOfListing? isNothing Scheme.all Scheme.name)
    contextPath := ← r.optionalText "context_path"
    apiContextPath := ← r.optionalText "api_context_path"
    bindingMode := ← r.required "binding_mode" (oneOfListing? isNothing BindingMode.all BindingMode.name)
    enableCors := ← r.required "enable_cors" Json.flag?
    componentProperties := ← r.required "component_properties" Dictionary.ofListing?
    endpointProperties := ← r.required "endpoint_properties" Dictionary.ofListing?
    consumerProperties := ← r.required "consumer_properties" Dictionary.ofListing?
    dataFormatProperties := ← r.required "data_format_properties" Dictionary.ofListing? }

/-! ### Bundles -/

/-- A bundle. -/
def Bundle.ofListing? (value : Json) : Option Bundle := do
  let r ← Record.ofListing? ["routes", "rests", "rest_configurations"] value
  return {
    routes := ← r.required "routes" (listOfListing? Route.ofListing?)
    services := ← r.required "rests" (listOfListing? RestService.ofListing?)
    configurations :=
      .ofList (← r.required "rest_configurations" (entriesOfListing? RestConfigurationDraft.ofListing?)) }

end RouteDepot
