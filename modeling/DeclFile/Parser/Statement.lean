import DeclFile.Parser.Declaration
import DeclFile.Parser.Import
import DeclFile.Parser.Run

/-! # Parsers of exports and statements, and the grammar

A statement is a declaration, an import or an export. Statements follow one another up to a
closing token; a broken one is skipped and the next one goes on. The grammar at the end says
how each nested construct is read and what happens where nesting is too deep.
-/

namespace DeclFile.Parser

/-! ## Exports -/

/-- Names exported from this module or another one. -/
def exportSpecifier (typeOnly : Bool) : Parser (Span → ExportSpecifier) := do
  let name ← exportName
  let exported ← do if ← skipIf (.word .as) then some <$> exportName else pure none
  return ExportSpecifier.mk name exported typeOnly

/-- Exported names in braces. -/
def namedExports (typeOnly : Bool) : Parser Export := do
  let found ← specifiers exportSpecifier
  let specifier ← do if ← skipIf (.word .from) then some <$> moduleSpecifier else pure none
  endStatement
  return .named typeOnly found specifier

/-- Everything that another module exports. -/
def exportAll (typeOnly : Bool) : Parser Export := do
  let _ ← advance
  let exported? ← do if ← skipIf (.word .as) then some <$> exportName else pure none
  let _ ← expect (.word .from)
  let specifier ← moduleSpecifier
  endStatement
  return .all typeOnly exported? specifier

/-- Whether a declaration follows `default`. -/
def defaultDeclares (next after : Kind) : Bool :=
  match next with
  | .word .function | .word .class | .word .interface => true
  | .word .abstract => after == .word .class
  | .word .async => after == .word .function
  | _ => false

/-- What follows `default`: a declaration or a name. An expression is reported and
skipped. -/
def defaultExport : Parser Export := do
  let next ← peekKind
  let after ← kindAhead 1
  if defaultDeclares next after then return .defaultDeclaration (← declaration true true)
  else if next.isBindingName then
    let name ← entityName
    endStatement
    return .defaultName name
  else
    reportHere .computedDefaultExport
    skipInitializer
    endStatement
    fail

/-- What follows `export`. -/
def exported : Parser Export := do
  let next ← peekKind
  let after ← kindAhead 1
  match next with
  | .mark .equals =>
      let _ ← advance
      let name ← entityName
      endStatement
      return .assignment name
  | .word .as =>
      let _ ← advance
      let _ ← expect (.word .namespace)
      let name ← ident
      endStatement
      return .asNamespace name
  | .word .default =>
      let _ ← advance
      defaultExport
  | .mark .star => exportAll false
  | .mark .openBrace => namedExports false
  | .word .type =>
      if after = .mark .openBrace then
        let _ ← advance
        namedExports true
      else if after = .mark .star then
        let _ ← advance
        exportAll true
      else .declaration <$> declaration true false
  | .word .import => .declaration <$> importStatement
  | .word .declare => .declaration <$> ambientDeclaration
  | _ => .declaration <$> declaration true false

/-- An export. -/
def exportStatement : Parser Statement :=
  spanned (fun found span => ⟨.export found, span⟩) do
    let _ ← advance
    exported

/-! ## Statements -/

/-- A statement. An import that is called or qualified is an expression, and none. -/
def statement (ambient : Bool) : Parser Statement := do
  let next ← peekKind
  let after ← kindAhead 1
  match next with
  | .word .declare => ambientDeclaration
  | .word .export => exportStatement
  | .word .import =>
      if after = .mark .openParen || after = .mark .dot then declaration ambient false
      else importStatement
  | _ => declaration ambient false

/-- A statement, or a semicolon by itself, unless `close` is next. A broken statement is
skipped. -/
def statementTurn (ambient : Bool) (close : Kind) : Parser (Turn Statement) := do
  let next ← peekKind
  if next = close || next = .endOfText then return ⟨none, false⟩
  else if next = .mark .semicolon then
    let _ ← advance
    return ⟨none, true⟩
  else
    match ← settle (statement ambient) with
    | .done found => return ⟨some found, true⟩
    | .failed progress =>
        recoverStatement progress
        return ⟨none, true⟩

/-- Statements up to but not including a token of the kind `close`. -/
def statements (ambient : Bool) (close : Kind) : Parser (List Statement) :=
  collect (statementTurn ambient close)

/-- The statements of a block after its opening brace, with the closing one. -/
def blockRest : Parser (List Statement) := do
  let found ← statements true (.mark .closeBrace)
  expectOrReport (.mark .closeBrace)
  return found

/-! ## The grammar -/

/-- How each nested construct is read. -/
def rule : (goal : Goal) → Parser goal.Result
  | .type => conditionalType
  | .operand inBound => operatorType inBound
  | .constraint inBound => inferConstraint inBound
  | .members => members
  | .classMembers => classMembers
  | .block => blockRest

/-- What happens where a nested construct is too deep: that is reported, and bodies are
skipped. -/
def refusal (limit : Nat) : (goal : Goal) → Parser goal.Result
  | .type => tooDeep
  | .operand _ => tooDeep
  | .constraint _ => tooDeep
  | .members => skipBody
  | .classMembers => skipBody
  | .block => do
      reportHere (.tooDeep limit)
      skipBlockRest
      return []
where
  /-- Reports the limit and fails. -/
  tooDeep {α : Type} : Parser α := refuse fun _ => .tooDeep limit
  /-- Reports the limit and skips to the closing brace. -/
  skipBody {α : Type} : Parser (List α) := do
    reportHere (.tooDeep limit)
    skipGroupsUntil (·.kind == .mark .closeBrace)
    return []

end DeclFile.Parser

namespace DeclFile

/-- The grammar of declaration files, with the nesting limit that its messages name. -/
def grammar (limit : Nat) : Grammar := ⟨Parser.rule, Parser.refusal limit⟩

end DeclFile
