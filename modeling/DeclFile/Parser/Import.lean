import DeclFile.Parser.Name
import DeclFile.Parser.Recovery

/-! # Parsers of imports and of specifier lists

The words `type`, `as` and `from` may be names, so the words after them decide what they
mean.
-/

namespace DeclFile.Parser

/-- Whether `type` is next and marks the specifier after it, instead of naming one. Before
`as` it is a name unless no name follows the `as`, or another `as` does. -/
def specifierTypeOnly : Parser Bool := do
  let next ← peekKind
  let second ← kindAhead 1
  let third ← kindAhead 2
  if next ≠ .word .type then return false
  else if second = .word .as then return !third.isName || third = .word .as
  else return second = .stringLiteral || second.isName

/-- Specifiers in braces, separated by commas. A broken one breaks the list. -/
def specifiers {α : Type} (specifier : Bool → Parser (Span → α)) : Parser (List α) := do
  let _ ← expect (.mark .openBrace)
  let found ← commaSeparated (.mark .closeBrace) do
    let found ← spanned (fun make span => make span) do
      let typeOnly ← specifierTypeOnly
      if typeOnly then
        let _ ← advance
      specifier typeOnly
    return ⟨some found, true⟩
  let _ ← expect (.mark .closeBrace)
  return found

/-- Skips the attributes of an import, which carry nothing for declarations. -/
def skipImportAttributes : Parser Unit := do
  let next ← peek
  let after ← kindAhead 1
  if next.kind = .identifier && (next.text == "with" || next.text == "assert")
      && after = .mark .openBrace && !next.newlineBefore then
    let _ ← advance
    skipGroup

/-- The module that something is imported from, with its attributes skipped. -/
def moduleSpecifier : Parser StringLit := do
  let specifier ← stringLit
  skipImportAttributes
  return specifier

/-- One imported name. -/
def importSpecifier (typeOnly : Bool) : Parser (Span → ImportSpecifier) := do
  let imported ← exportName
  let binding ← do if ← skipIf (.word .as) then ident else pure imported
  return ImportSpecifier.mk imported binding typeOnly

/-- What an import binds besides a default. -/
def importBindings : Parser ImportBindings := do
  if ← skipIf (.mark .star) then
    let _ ← expect (.word .as)
    return .namespace (← ident)
  else return .named (← specifiers importSpecifier)

/-- What an equals sign in an import stands in front of. -/
def importTarget : Parser ImportTarget := do
  let next ← peek
  let after ← kindAhead 1
  if next.kind = .identifier && next.text == "require" && after = .mark .openParen then
    let _ ← advance
    let _ ← advance
    let specifier ← stringLit
    let _ ← expect (.mark .closeParen)
    return .require specifier
  else return .entity (← entityName)

/-- An import clause: a default, bindings or both, and the module. -/
def importClause : Parser ImportKind := do
  let next ← peekKind
  let default ← if next.isBindingName then some <$> ident else pure none
  let more ← if default.isNone then pure true else skipIf (.mark .comma)
  let bindings ← if more then some <$> importBindings else pure none
  let _ ← expect (.word .from)
  return .clause default bindings (← moduleSpecifier)

/-- Whether `type` is next and makes the whole import type-only. -/
def importTypeOnly : Parser Bool := do
  let next ← peekKind
  let second ← kindAhead 1
  return next = .word .type &&
    (second = .mark .openBrace || second = .mark .star ||
      (second.isBindingName && second ≠ .word .from))

/-- What an import declares, after its keywords. -/
def importKind : Parser ImportKind := do
  let next ← peekKind
  let after ← kindAhead 1
  if next = .stringLiteral then return .sideEffect (← moduleSpecifier)
  else if next.isBindingName && after = .mark .equals then
    let name ← ident
    let _ ← advance
    return .equals name (← importTarget)
  else importClause

/-- An import declaration. -/
def importStatement : Parser Statement :=
  spanned (fun decl span => ⟨.import decl, span⟩) do
    let _ ← advance
    let typeOnly ← importTypeOnly
    if typeOnly then
      let _ ← advance
    let kind ← importKind
    endStatement
    return ⟨typeOnly, kind⟩

end DeclFile.Parser
