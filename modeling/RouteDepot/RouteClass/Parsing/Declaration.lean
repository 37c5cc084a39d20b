import RouteDepot.RouteClass.Parsing.Statement

/-! # Parsing declarations

Classes, their members, imports and the package name. Faults are recorded, and parsing goes on with the next
member or declaration; a unit is parsed only when there are none.
-/

namespace RouteDepot.RouteClass.Parser

/-- The most levels of blocks and expressions that a member may open. -/
def nestingLimit : Nat := 128

/-- Skips arguments in parentheses, if they follow. -/
def skipArguments : Parser Unit := do
  if ← sees (.mark .parenOpen) then
    let c : Cursor ← get
    match skipParens? 0 c.ahead with
    | some (ahead, last) => set { c with ahead, last }
    | none =>
      set { c with ahead := [], last := (c.ahead.getLast?.map Token.span).getD c.last }
      failExpected "')'"

/-- A name behind an at sign; its arguments carry no meaning. -/
def atName : Parser DottedName := do
  let _ ← expect (.mark .atSign) "'@'"
  let name ← dottedName
  skipArguments
  return name

/-- The modifiers with one word added, if it is one of theirs. -/
def withWord? (m : Modifiers) : Keyword → Option Modifiers
  | .publicKw => some { m with isPublic := true }
  | .protectedKw => some { m with isProtected := true }
  | .privateKw => some { m with isPrivate := true }
  | .staticKw => some { m with isStatic := true }
  | .finalKw => some { m with isFinal := true }
  | .abstractKw => some { m with isAbstract := true }
  | _ => none

/-- Modifiers in any order, repetitions included. -/
def modifiers : Parser Modifiers :=
  iterate (fun m => do
    match (← get).next? with
    | some (.mark .atSign) => return some { m with annotations := m.annotations ++ [← atName] }
    | some (.keyword k) =>
      match withWord? m k with
      | some more =>
        skip
        return some more
      | none => return none
    | _ => return none) {}

/-- One parameter; `final` before its type carries no meaning. -/
def parameter : Parser Parameter := do
  let _ ← accept (.keyword .finalKw)
  let type ← typeName
  let name ← ident
  return ⟨type, name⟩

/-- Parameters between parentheses. -/
def parameters : Parser (List Parameter) := do
  let _ ← expect (.mark .parenOpen) "'('"
  let list ← if ← sees (.mark .parenClose) then pure [] else commaSeparated parameter
  let _ ← expect (.mark .parenClose) "')'"
  return list

/-- The names behind a word, if it follows. -/
def namesAfter (word : Keyword) : Parser (List DottedName) := do
  if ← accept (.keyword word) then commaSeparated dottedName else return []

/-- A member of the class with the given name. -/
def member (className : String) : Parser Member := do
  let modifiers ← modifiers
  match (← get).ahead with
  | ⟨.keyword .classKw, _⟩ :: _ | ⟨.keyword .interfaceKw, _⟩ :: _ | ⟨.keyword .enumKw, _⟩ :: _ =>
    fail .nestedDeclaration
  | ⟨.ident word, _⟩ :: ⟨.mark .parenOpen, _⟩ :: _ =>
    if word = className then
      let name ← ident
      let parameters ← parameters
      let _ ← namesAfter .throwsKw
      return .constructor { modifiers, name, parameters, body := ← block nestingLimit }
    else fieldOrMethod modifiers
  | _ => fieldOrMethod modifiers
where
  /-- A member that begins with its type. -/
  fieldOrMethod (modifiers : Modifiers) : Parser Member := do
    let result ← if ← accept (.keyword .voidKw) then pure none else some <$> typeName
    let name ← ident
    if ← sees (.mark .parenOpen) then
      let parameters ← parameters
      let throws ← namesAfter .throwsKw
      let body ← if ← accept (.mark .semicolon) then pure none else some <$> block nestingLimit
      return .method { modifiers, result, name, parameters, throws, body }
    else
      match result with
      | none => failAt name.span .voidVariable
      | some type =>
        resetLinks
        let value ← initialValue (expression nestingLimit)
        let _ ← expect (.mark .semicolon) "';'"
        return .field { modifiers, type, name, value }

/-- One more member of a class body, unless the body ends here; stray semicolons are skipped. -/
def bodyMember (className : String) (done : List Member) : Parser (Option (List Member)) := do
  if ← bodyEnds then return none
  if ← accept (.mark .semicolon) then return some done
  return some (done ++ (← recover (member className) Cursor.afterMember).toList)

/-- A class. -/
def classDeclaration : Parser ClassDeclaration := do
  let start := (← get).here.start
  let modifiers ← modifiers
  match (← get).next? with
  | some (.keyword .classKw) => skip
  | some (.keyword .interfaceKw) => fail (.unsupportedDeclaration (.keyword .interfaceKw))
  | some (.keyword .enumKw) => fail (.unsupportedDeclaration (.keyword .enumKw))
  | _ => failExpected "class declaration"
  let name ← ident
  let parent ← if ← accept (.keyword .extendsKw) then some <$> dottedName else pure none
  let interfaces ← namesAfter .implementsKw
  let _ ← expect (.mark .braceOpen) "'\x7b'"
  let members ← iterate (bodyMember name.name) []
  let closing ← expect (.mark .braceClose) "'\x7d'"
  return { modifiers, name, parent, interfaces, members, span := ⟨start, closing.stop⟩ }

/-- The package name, if the source begins with one. -/
def packageName : Parser (Option DottedName) := do
  if ← accept (.keyword .packageKw) then
    let name ← dottedName
    let _ ← expect (.mark .semicolon) "';'"
    return some name
  else return none

/-- An import; a star at its end is kept as the last part of the name. -/
def importName : Parser DottedName := do
  let _ ← expect (.keyword .importKw) "'import'"
  let _ ← accept (.keyword .staticKw)
  let name ← dottedName
  let name ← if ← accept (.mark .dot) then do
      let star ← expect (.mark .star) "'*' or identifier"
      pure ⟨name.parts ++ ["*"], ⟨name.span.start, star.stop⟩⟩
    else pure name
  let _ ← expect (.mark .semicolon) "';'"
  return name

/-- One more import, if one follows. -/
def moreImports (done : List DottedName) : Parser (Option (List DottedName)) := do
  if ← sees (.keyword .importKw) then
    return some (done ++ (← recover importName Cursor.afterDeclaration).toList)
  else return none

/-- One more class, unless the input ends here; stray semicolons are skipped. -/
def moreClasses (done : List ClassDeclaration) : Parser (Option (List ClassDeclaration)) := do
  if (← get).ahead.isEmpty then return none
  if ← accept (.mark .semicolon) then return some done
  return some (done ++ (← recover classDeclaration Cursor.afterDeclaration).toList)

/-- A whole source. -/
def sourceUnit : Parser SourceUnit := do
  let package ← recover packageName Cursor.afterDeclaration
  let imports ← iterate moreImports []
  let classes ← iterate moreClasses []
  return ⟨package.join, imports, classes⟩

end Parser

namespace SourceUnit

/-- The unit that tokens form, or the faults of their order; `stop` is where the end of the input is reported. -/
def ofTokens (tokens : List Token) (stop : Span) : Except (List (Finding SyntaxFault)) SourceUnit :=
  match Parser.sourceUnit.run.run { ahead := tokens, stop } with
  | (.ok unit, after) => if after.faults.isEmpty then .ok unit else .error after.faults
  | (.error fault, after) => .error (after.faults ++ [fault])

end SourceUnit

end RouteDepot.RouteClass
