import RouteDepot.Bundle
import RouteDepot.Diagnostic
import RouteDepot.Json

/-! # Listings

Definitions, configurations and diagnostics as JSON values. Absent texts are listed as null.
-/

namespace RouteDepot

/-- A dictionary of texts as an object. -/
def Dictionary.listing (d : Dictionary String) : Json :=
  .obj (d.entries.map fun (key, value) => (key, .str value))

/-- A clause as an object. -/
def Clause.listing (c : Clause) : Json := .obj [("language", .str c.language.name), ("text", .str c.text)]

/-- A step as an object whose type comes first. -/
def Step.listing : Step → Json
  | send uri => .obj [("type", .str "to"), ("uri", .str uri)]
  | sendDynamic uri => .obj [("type", .str "to_d"), ("uri", .str uri)]
  | log message => .obj [("type", .str "log"), ("message", .str message)]
  | setBody value => .obj [("type", .str "set_body"), ("expression", value.listing)]
  | setHeader name value =>
    .obj [("type", .str "set_header"), ("name", .str name), ("expression", value.listing)]
  | removeHeader name => .obj [("type", .str "remove_header"), ("name", .str name)]
  | transform value => .obj [("type", .str "transform"), ("expression", value.listing)]
  | filter condition => .obj [("type", .str "filter"), ("expression", condition.listing)]

/-- A route as an object. -/
def Route.listing (r : Route) : Json :=
  .obj [("id", .ofOption r.id), ("description", .ofOption r.description), ("from", .str r.origin),
    ("auto_startup", .bool r.autoStartup), ("steps", .arr (r.steps.map Step.listing))]

/-- A verb as an object. -/
def Verb.listing (v : Verb) : Json :=
  .obj [("method", .str v.method.name), ("uri", .ofOption v.uri), ("to", .ofOption v.target),
    ("description", .ofOption v.description), ("consumes", .ofOption v.consumes),
    ("produces", .ofOption v.produces)]

/-- A REST service as an object. -/
def RestService.listing (s : RestService) : Json :=
  .obj [("path", .ofOption s.path), ("description", .ofOption s.description),
    ("consumes", .ofOption s.consumes), ("produces", .ofOption s.produces),
    ("verbs", .arr (s.verbs.map Verb.listing))]

/-- A REST configuration as route code writes it, as an object. -/
def RestConfigurationDraft.listing (d : RestConfigurationDraft) : Json :=
  .obj [("component", .ofOption d.component), ("host", .ofOption d.host), ("port", .ofOption d.port),
    ("scheme", .ofOption d.scheme), ("context_path", .ofOption d.contextPath),
    ("api_context_path", .ofOption d.apiContextPath), ("binding_mode", .ofOption d.bindingMode),
    ("enable_cors", .ofOption d.enableCors), ("component_properties", d.componentProperties.listing),
    ("endpoint_properties", d.endpointProperties.listing),
    ("consumer_properties", d.consumerProperties.listing),
    ("data_format_properties", d.dataFormatProperties.listing)]

/-- A REST configuration as an object. -/
def RestConfiguration.listing (c : RestConfiguration) : Json :=
  .obj [("component", .ofOption c.component), ("host", .ofOption c.host),
    ("port", (c.port.map fun port => Json.nat port.val).getD .null), ("scheme", .str c.scheme.name),
    ("context_path", .ofOption c.contextPath), ("api_context_path", .ofOption c.apiContextPath),
    ("binding_mode", .str c.bindingMode.name), ("enable_cors", .bool c.enableCors),
    ("component_properties", c.componentProperties.listing),
    ("endpoint_properties", c.endpointProperties.listing),
    ("consumer_properties", c.consumerProperties.listing),
    ("data_format_properties", c.dataFormatProperties.listing)]

/-- A bundle as an object; its REST configurations are an object by component. -/
def Bundle.listing (b : Bundle) : Json :=
  .obj [("routes", .arr (b.routes.map Route.listing)), ("rests", .arr (b.services.map RestService.listing)),
    ("rest_configurations", .obj (b.configurations.entries.map fun (key, draft) => (key, draft.listing)))]

/-- A diagnostic as an object. -/
def Diagnostic.listing (d : Diagnostic) : Json :=
  .obj [("message", .str d.message), ("span", .obj [("start", .nat d.span.start), ("end", .nat d.span.stop)]),
    ("line", .nat d.line), ("column", .nat d.column)]

end RouteDepot
