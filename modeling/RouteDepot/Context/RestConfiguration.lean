import RouteDepot.Context.Placeholder
import RouteDepot.Text.Number

/-! # REST configurations

Route code writes the options of a REST configuration as texts, which may hold property placeholders. Resolved
against properties, the texts become values, and every option is checked.
-/

namespace RouteDepot

/-- The protocol of REST services. -/
inductive Scheme where
  | http | https
  deriving DecidableEq, Repr

/-- How REST services convert the bodies of messages. -/
inductive BindingMode where
  | off | auto | json | xml | jsonXml
  deriving DecidableEq, Repr

/-- The name of a scheme. -/
def Scheme.name : Scheme → String
  | .http => "http"
  | .https => "https"

/-- The name of a binding mode. -/
def BindingMode.name : BindingMode → String
  | .off => "off" | .auto => "auto" | .json => "json" | .xml => "xml" | .jsonXml => "json_xml"

/-- Every scheme. -/
def Scheme.all : List Scheme := [.http, .https]

/-- Every binding mode. -/
def BindingMode.all : List BindingMode := [.off, .auto, .json, .xml, .jsonXml]

/-- The number of ports of a network address. -/
abbrev portCount : Nat := 0x10000

/-- A port of a network address. -/
abbrev Port := Fin portCount

/-- A REST configuration as route code writes it. -/
structure RestConfigurationDraft where
  component : Option String := none
  host : Option String := none
  port : Option String := none
  scheme : Option String := none
  contextPath : Option String := none
  apiContextPath : Option String := none
  bindingMode : Option String := none
  enableCors : Option String := none
  componentProperties : Dictionary String := .empty
  endpointProperties : Dictionary String := .empty
  consumerProperties : Dictionary String := .empty
  dataFormatProperties : Dictionary String := .empty
  deriving DecidableEq

/-- A REST configuration with its values. -/
structure RestConfiguration where
  component : Option String := none
  host : Option String := none
  port : Option Port := none
  scheme : Scheme := .http
  contextPath : Option String := none
  apiContextPath : Option String := none
  bindingMode : BindingMode := .off
  enableCors : Bool := false
  componentProperties : Dictionary String := .empty
  endpointProperties : Dictionary String := .empty
  consumerProperties : Dictionary String := .empty
  dataFormatProperties : Dictionary String := .empty
  deriving DecidableEq

/-- The component that a configuration is for; the empty text stands for the default one. -/
def RestConfiguration.key (c : RestConfiguration) : String := c.component.getD ""

/-! ### Values of options -/

namespace Port

/-- The reason why a number is refused. -/
def faultOf : Text.NumberFault → OptionFault
  | .empty => .emptyNumber
  | .invalidDigit => .invalidDigit
  | .tooLarge => .numberTooLarge

/-- The port that a text spells, blanks around it aside. -/
def ofText (text : String) : Except ContextError Port :=
  match read : Text.numberBelow portCount (Text.trimList text.toList) with
  | .ok n => .ok ⟨n, Text.numberBelow_lt (by decide) read⟩
  | .error fault => .error (.invalidOption "port" text (faultOf fault))

end Port

/-- The scheme that a text names, blanks around it aside. -/
def Scheme.ofText (text : String) : Except ContextError Scheme :=
  match all.find? (·.name == Text.trim text) with
  | some scheme => .ok scheme
  | none => .error (.invalidOption "scheme" (Text.trim text) .unknownScheme)

/-- The binding mode that a text names, blanks around it and the case of its letters aside. -/
def BindingMode.ofText (text : String) : Except ContextError BindingMode :=
  let word := String.ofList ((Text.trimList text.toList).map Char.toLower)
  match all.find? (·.name == word) with
  | some mode => .ok mode
  | none => .error (.invalidOption "bindingMode" text .unknownBindingMode)

/-- The flag that a text names, blanks around it aside. -/
def corsOfText (text : String) : Except ContextError Bool :=
  match Text.trim text with
  | "true" => .ok true
  | "false" => .ok false
  | _ => .error (.invalidOption "enableCORS" text .notBoolean)

/-! ### Resolution -/

namespace RestConfigurationDraft

variable {α : Type}

/-- The value of an option: its text resolved and read, or the default when the option is not set. -/
def option (properties : Properties) (text : Option String) (default : α)
    (read : String → Except ContextError α) : Except ContextError α :=
  match text with
  | none => .ok default
  | some text => properties.resolve text >>= read

/-- The text of an option, resolved. -/
def textOption (properties : Properties) (text : Option String) : Except ContextError (Option String) :=
  option properties text none fun resolved => .ok (some resolved)

/-- The configuration that a draft describes: the options that are read come first, then the texts, then the free
properties; the first fault ends the resolution. -/
def resolve (properties : Properties) (d : RestConfigurationDraft) : Except ContextError RestConfiguration := do
  let port ← option properties d.port none fun text => some <$> Port.ofText text
  let scheme ← option properties d.scheme .http Scheme.ofText
  let bindingMode ← option properties d.bindingMode .off BindingMode.ofText
  let enableCors ← option properties d.enableCors false corsOfText
  let component ← textOption properties d.component
  let host ← textOption properties d.host
  let contextPath ← textOption properties d.contextPath
  let apiContextPath ← textOption properties d.apiContextPath
  let componentProperties ← d.componentProperties.traverse properties.resolve
  let endpointProperties ← d.endpointProperties.traverse properties.resolve
  let consumerProperties ← d.consumerProperties.traverse properties.resolve
  let dataFormatProperties ← d.dataFormatProperties.traverse properties.resolve
  return {
    component, host, port, scheme, contextPath, apiContextPath, bindingMode, enableCors
    componentProperties, endpointProperties, consumerProperties, dataFormatProperties }

end RestConfigurationDraft

end RouteDepot
