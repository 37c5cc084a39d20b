import RouteDepot.Excerpt.Drawing
import RouteDepot.RouteClass.Lowering.Class
import RouteDepot.RouteClass.Parsing.Declaration
import RouteDepot.RouteClass.Token.Scan

/-! # Compiling

From the text of a source to the program of its class. Faults of spelling and of order are reported together, by
place; the meaning is looked at only when there are none.
-/

namespace RouteDepot.RouteClass

/-- A source that could not be compiled, with the messages that say why. -/
structure CompileError where
  unit : String
  diagnostics : List Diagnostic
  deriving DecidableEq, Repr

/-- What a failed compilation is headed with. -/
def CompileError.title (e : CompileError) : String := s!"failed to compile '{e.unit}'"

/-- The wording of a failed compilation. -/
def CompileError.message (e : CompileError) : String := s!"{e.title}: {Diagnostic.summarize e.diagnostics}"

/-- The diagnostics drawn below the lines of the source, which is shown under a name. -/
def CompileError.drawing (e : CompileError) (name source : String) : String :=
  String.join (e.diagnostics.map (Excerpt.draw e.title name source))

/-- The faults of spelling as diagnostics. -/
def Lexed.diagnostics (source : String) (l : Lexed) : List Diagnostic :=
  l.faults.map fun f => .locate source f.span f.cause.message

/-- Faults of order as diagnostics. -/
def syntaxDiagnostics (source : String) (faults : List (Finding SyntaxFault)) : List Diagnostic :=
  faults.map fun f => .locate source f.span f.cause.message

/-- Faults of meaning as diagnostics. -/
def semanticDiagnostics (source : String) (faults : List (Finding SemanticFault)) : List Diagnostic :=
  faults.map fun f => .locate source f.span f.cause.message

/-- Diagnostics in the order of where they begin; those that begin together keep their order. -/
def sortDiagnostics (diagnostics : List Diagnostic) : List Diagnostic :=
  diagnostics.mergeSort fun a b => a.span.start ≤ b.span.start

/-- The program of the class that the qualified name means. -/
def compile (qualifiedName source : String) : Except CompileError Program :=
  let lexed := Lexed.ofSource source
  let lexical := lexed.diagnostics source
  match SourceUnit.ofTokens lexed.tokens lexed.stopSpan with
  | .error faults =>
    .error ⟨qualifiedName, sortDiagnostics (lexical ++ syntaxDiagnostics source faults)⟩
  | .ok unit =>
    if lexical.isEmpty then
      match unit.lower qualifiedName with
      | .ok program => .ok program
      | .error faults => .error ⟨qualifiedName, semanticDiagnostics source faults⟩
    else .error ⟨qualifiedName, lexical⟩

end RouteDepot.RouteClass
