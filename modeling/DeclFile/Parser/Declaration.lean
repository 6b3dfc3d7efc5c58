import DeclFile.Parser.Member

/-! # Parsers of declarations

Variables, functions, classes, interfaces, type aliases, enumerations, namespaces, ambient
modules and global augmentations. A declaration that runs code needs `declare` or `export`
in front at the top of a file; without one it is reported and read all the same.
-/

namespace DeclFile.Parser

/-! ## Variables and functions -/

/-- A literal that is a whole initializer, with the span of its last token. -/
def literalInitializer : Parser (Literal × Span) := do
  let found ← literal
  let next ← peek
  match next.kind with
  | .mark .comma | .mark .semicolon | .mark .closeBrace | .endOfText => return found
  | _ => if next.newlineBefore then return found else fail

/-- The initializer of a variable. Only a constant may have one, and only a literal. -/
def initializer (kind : VarKind) : Parser (Option Literal) := do
  match ← attempt literalInitializer with
  | some (literal, span) =>
      if kind = .const then return some literal
      else
        report (Cause.assignedVariable.at span)
        return none
  | none =>
      reportHere .computedInitializer
      skipInitializer
      return none

/-- One variable. -/
def declarator (kind : VarKind) : Parser Declarator :=
  spanned (fun make span => make span) do
    let name ← ident
    let _ ← skipIf (.mark .bang)
    let type ← typeAfter (.mark .colon)
    let init ← do if ← skipIf (.mark .equals) then initializer kind else pure none
    return Declarator.mk name type init

/-- Variables after the keyword. -/
def varDecl (kind : VarKind) : Parser VarDecl := do
  let _ ← advance
  let declarators ← collect do
    let found ← declarator kind
    return ⟨some found, ← skipIf (.mark .comma)⟩
  endStatement
  return ⟨kind, declarators⟩

/-- A function. One that may be anonymous is then named `default`. -/
def functionDecl (anonymous : Bool) : Parser FunctionDecl := do
  let keyword ← advance
  let next ← peekKind
  let name ← if anonymous && opensSignature next then pure ⟨"default", keyword.span⟩ else ident
  let signature ← signature
  if (← peekKind) = .mark .openBrace then skipBody else endStatement
  return ⟨name, signature⟩

/-! ## Classes, interfaces, type aliases and enumerations -/

/-- Type names separated by commas; one that fails ends them. -/
def heritage : Parser (List TypeRef) :=
  collect do
    match ← optional typeRef with
    | some found => return ⟨some found, ← skipIf (.mark .comma)⟩
    | none => return ⟨none, false⟩

/-- A body in braces, which must open here. A missing closing brace is reported. -/
def braced {α : Type} (body : Parser α) : Parser α := do
  let _ ← expect (.mark .openBrace)
  let found ← body
  expectOrReport (.mark .closeBrace)
  return found

/-- A class. One that may be anonymous may go without a name. -/
def classDecl (isAbstract anonymous : Bool) : Parser ClassDecl := do
  let _ ← advance
  let next ← peekKind
  let named := next.isBindingName && next ≠ .word .implements
  let name ← if named || !anonymous then some <$> ident else pure none
  let typeParams ← typeParams
  let base ← do if ← skipIf (.word .extends) then optional typeRef else pure none
  let implemented ← do if ← skipIf (.word .implements) then heritage else pure []
  let members ← braced (nested .classMembers)
  return ⟨name, isAbstract, typeParams, base, implemented, members⟩

/-- An interface. -/
def interfaceDecl : Parser InterfaceDecl := do
  let _ ← advance
  let name ← ident
  let typeParams ← typeParams
  let bases ← do if ← skipIf (.word .extends) then heritage else pure []
  let members ← braced (nested .members)
  return ⟨name, typeParams, bases, members⟩

/-- A type alias. -/
def typeAlias : Parser TypeAlias := do
  let _ ← advance
  let name ← ident
  let typeParams ← typeParams
  let _ ← expect (.mark .equals)
  let type ← type
  endStatement
  return ⟨name, typeParams, type⟩

/-- A literal that is a whole enumeration initializer. -/
def enumLiteral : Parser Literal := do
  let (found, _) ← literal
  let next ← peekKind
  if next = .mark .comma || next = .mark .closeBrace then return found else fail

/-- The initializer of an enumeration member. -/
def enumInitializer : Parser (Option Literal) := do
  match ← attempt enumLiteral with
  | some found => return some found
  | none =>
      reportHere .enumInitializer
      skipInitializer
      return none

/-- A member of an enumeration. -/
def enumMember : Parser EnumMember :=
  spanned (fun make span => make span) do
    let name ← propertyName
    let init ← do if ← skipIf (.mark .equals) then enumInitializer else pure none
    return EnumMember.mk name init

/-- A member of an enumeration, or none where a broken one was skipped. -/
def enumMember? : Parser (Option EnumMember) := do
  match ← settle enumMember with
  | .done found => return some found
  | .failed progress =>
      if !progress then
        let _ ← advance
      skipGroupsUntil fun token =>
        token.kind == .mark .comma || token.kind == .mark .closeBrace
      return none

/-- An enumeration, from `enum` on. -/
def enumDecl (isConst : Bool) : Parser EnumDecl := do
  let _ ← advance
  let name ← ident
  let members ← braced <| commaSeparated (.mark .closeBrace) do
    return ⟨← enumMember?, true⟩
  return ⟨isConst, name, members⟩

/-! ## Namespaces and modules -/

/-- A block of statements in braces; one that does not open is reported and empty. -/
def block : Parser (List Statement) := do
  match ← optional (expect (.mark .openBrace)) with
  | some _ => nested .block
  | none => return []

/-- A namespace, after its keyword. -/
def namespaceDecl : Parser StatementKind := do
  let name ← spanned (fun (first, rest) span => EntityName.mk first rest span) do
    let first ← ident
    let rest ← collect do
      if ← skipIf (.mark .dot) then return ⟨some (← ident), true⟩
      else return ⟨none, false⟩
    return (first, rest)
  return .namespace name (← block)

/-- A module with a quoted name, after its keyword. -/
def ambientModule : Parser StatementKind := do
  let name ← stringLit
  if (← peekKind) = .mark .openBrace then return .ambientModule name (some (← block))
  else
    endStatement
    return .ambientModule name none

/-! ## All declarations -/

/-- Reports a runtime declaration that is not ambient. -/
def requireAmbient (ambient : Bool) (declaration : RuntimeDeclaration) : Parser Unit := do
  if !ambient then reportHere (.notAmbient declaration)

/-- Variables, with what the keyword says of them. -/
def variableStatement (ambient : Bool) (kind : VarKind) : Parser StatementKind := do
  requireAmbient ambient .variable
  return .var (← varDecl kind)

/-- A function, perhaps after `async`. -/
def functionStatement (ambient async anonymous : Bool) : Parser StatementKind := do
  requireAmbient ambient .function
  if async then
    let _ ← advance
  return .function (← functionDecl anonymous)

/-- A class, perhaps after `abstract`. -/
def classStatement (ambient isAbstract anonymous : Bool) : Parser StatementKind := do
  requireAmbient ambient .class
  if isAbstract then
    let _ ← advance
  return .class (← classDecl isAbstract anonymous)

/-- The form of a declaration without `declare` or `export` in front. -/
def declarationKind (ambient anonymous : Bool) : Parser StatementKind := do
  let next ← peekKind
  let after ← kindAhead 1
  let unknown : Parser StatementKind := refuse .missingDeclaration
  match next with
  | .word .var => variableStatement ambient .var
  | .word .let => variableStatement ambient .let
  | .word .const =>
      if after = .word .enum then
        let _ ← advance
        return .enum (← enumDecl true)
      else variableStatement ambient .const
  | .word .function => functionStatement ambient false anonymous
  | .word .async =>
      if after = .word .function then functionStatement ambient true anonymous else unknown
  | .word .class => classStatement ambient false anonymous
  | .word .abstract =>
      if after = .word .class then classStatement ambient true anonymous else unknown
  | .word .interface => return .interface (← interfaceDecl)
  | .word .type => if after.isBindingName then return .typeAlias (← typeAlias) else unknown
  | .word .enum => return .enum (← enumDecl false)
  | .word .namespace =>
      let _ ← advance
      namespaceDecl
  | .word .module =>
      let _ ← advance
      if after = .stringLiteral then ambientModule else namespaceDecl
  | .word .global =>
      if after = .mark .openBrace then
        let _ ← advance
        return .global (← block)
      else unknown
  | _ => unknown

/-- A declaration without `declare` or `export` in front. Where `anonymous` holds, functions
and classes may go without a name. -/
def declaration (ambient anonymous : Bool) : Parser Statement :=
  spanned Statement.mk (declarationKind ambient anonymous)

/-- A declaration after `declare`. -/
def ambientDeclaration : Parser Statement :=
  spanned (fun inner span => ⟨.ambient inner, span⟩) do
    let _ ← advance
    declaration true false

end DeclFile.Parser
