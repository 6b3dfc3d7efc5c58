import DeclFile.Parser.Basic

/-! # Parsers of names and literals

Most keywords are only reserved in some places. Where a binding is named they may be names
too, unless they are reserved; after a dot and as the name of a member every word may.
-/

namespace DeclFile.Parser

/-- The next token as an identifier, whatever it is. -/
def readIdent : Parser Ident := do
  let token ← advance
  return ⟨token.text, token.span⟩

/-- An identifier that can name a binding. -/
def ident : Parser Ident := do
  if (← peekKind).isBindingName then readIdent else refuse .missingIdentifier

/-- An identifier that may be any word. -/
def anyIdent : Parser Ident := do
  if (← peekKind).isName then readIdent else refuse .missingIdentifier

/-- A string literal. -/
def stringLit : Parser StringLit := do
  let token ← expect .stringLiteral
  return ⟨token.text, token.span⟩

/-- The segments of a dotted name after the first; each dot must have a word after it. -/
def moreSegments : Parser (List Ident) :=
  collect do
    let next ← peekKind
    let word ← kindAhead 1
    if next = .mark .dot && word.isName then
      let _ ← advance
      return ⟨some (← readIdent), true⟩
    else return ⟨none, false⟩

/-- A dotted name; the first segment must be able to name a binding, or be `this`. -/
def entityName : Parser EntityName :=
  spanned (fun (first, rest) span => ⟨first, rest, span⟩) do
    let next ← peekKind
    let first ← if next = .word .this then readIdent else ident
    return (first, ← moreSegments)

/-- The dotted name after an import type, whose segments may be any words. -/
def qualifier : Parser EntityName :=
  spanned (fun (first, rest) span => ⟨first, rest, span⟩) do
    let first ← anyIdent
    return (first, ← moreSegments)

/-- The name of something imported or exported: any word or a string. -/
def exportName : Parser Ident := do
  if (← peekKind) = .stringLiteral then readIdent else anyIdent

/-- A string, number, bigint or boolean literal; a number may have a minus sign. The span
is that of the last token. -/
def literal : Parser (Literal × Span) := do
  let negative ← skipIf (.mark .minus)
  let token ← advance
  let digits := if negative then "-" ++ token.text else token.text
  let value? : Option Literal :=
    match token.kind with
    | .numberLiteral => some (.number digits)
    | .bigintLiteral => some (.bigint digits)
    | .stringLiteral | .templateWhole => if negative then none else some (.string token.text)
    | .word .true => if negative then none else some (.boolean true)
    | .word .false => if negative then none else some (.boolean false)
    | _ => none
  match value? with
  | some value => return (value, token.span)
  | none => fail

/-- What stands between the brackets of a computed name. -/
def keyExpr : Parser KeyExpr := do
  match ← peekKind with
  | .stringLiteral => return .string (← advance).text
  | .numberLiteral => return .number (← advance).text
  | next =>
      if next.isName then
        spanned (fun (first, rest) span => .name ⟨first, rest, span⟩) do
          let first ← readIdent
          return (first, ← moreSegments)
      else refuse .missingComputedName

/-- The name of a member: a word, a string, a number, a private name, or a computed name in
brackets. -/
def propertyName : Parser PropertyName := do
  let next ← peek
  match next.kind with
  | .stringLiteral =>
      let _ ← advance
      return .string ⟨next.text, next.span⟩
  | .numberLiteral =>
      let _ ← advance
      return .number next.text next.span
  | .privateName =>
      let _ ← advance
      let name := String.ofList (next.text.toList.dropWhile (· == '#'))
      return .privateName ⟨name, next.span⟩
  | .mark .openBracket =>
      spanned .computed do
        let _ ← advance
        let expr ← keyExpr
        let _ ← expect (.mark .closeBracket)
        return expr
  | kind => if kind.isName then return .ident (← readIdent) else refuse .missingPropertyName

end DeclFile.Parser
