import DeclFile.Parser.Basic

/-! # Skipping and recovery

How the reader gets past tokens that it cannot use. Every loop here reads a token in each
turn until it stops, and none of them passes the end of the text.
-/

namespace DeclFile.Parser

/-- Whether a kind of token opens a bracketed group. -/
def opensGroup : Kind → Bool
  | .mark .openBrace | .mark .openBracket | .mark .openParen => true
  | _ => false

/-- Whether a kind of token closes a bracketed group. -/
def closesGroup : Kind → Bool
  | .mark .closeBrace | .mark .closeBracket | .mark .closeParen => true
  | _ => false

/-- Skips one token inside `depth` groups, or the first one of all. The end of the text is left
unread. -/
def skipTurn (depth : Nat) : Parser (Step Nat Unit) := do
  let next ← peekKind
  if next = .endOfText then return .done ()
  else
    let _ ← advance
    if opensGroup next then return .more (depth + 1)
    else if closesGroup next then
      return if depth ≤ 1 then .done () else .more (depth - 1)
    else return if depth = 0 then .done () else .more depth

/-- Skips a bracketed group with all groups inside it, or one token where none opens. The
kinds of brackets are not told apart. -/
def skipGroup : Parser Unit := loop 0 skipTurn

/-- Skips groups and tokens until `stop` holds of the next token or the text ends. -/
def skipGroupsUntil (stop : Token → Bool) : Parser Unit :=
  loop () fun _ => do
    let next ← peek
    if next.kind = .endOfText || stop next then return .done ()
    else
      skipGroup
      return .more ()

/-- Skips an expression: up to a comma, semicolon or closing bracket outside of its groups,
or to the end of the line of its last token. -/
def skipInitializer : Parser Unit :=
  loop false fun begun => do
    let next ← peek
    if next.kind = .mark .comma || next.kind = .mark .semicolon || closesGroup next.kind
        || next.kind = .endOfText then return .done ()
    else if opensGroup next.kind then
      skipGroup
      return .more true
    else if next.newlineBefore && begun then return .done ()
    else
      let _ ← advance
      return .more true

/-- Skips the rest of a block whose opening brace was read, with its closing brace. -/
def skipBlockRest : Parser Unit :=
  loop (1 : Nat) fun depth => do
    match (← advance).kind with
    | .mark .openBrace => return .more (depth + 1)
    | .mark .closeBrace => return if depth ≤ 1 then .done () else .more (depth - 1)
    | .endOfText => return .done ()
    | _ => return .more depth

/-- Whether a token begins a statement for sure. Words that are often mere names only do so
at the start of a line. -/
def beginsStatement (token : Token) : Bool :=
  match token.kind with
  | .word .export | .word .import | .word .interface | .word .class | .word .function
  | .word .enum | .word .var | .word .let | .word .const => true
  | .word .declare | .word .type | .word .namespace | .word .module | .word .global
  | .word .abstract => token.newlineBefore
  | _ => false

/-- Skips to the next statement: past a semicolon, or up to a closing brace or a token that
begins a statement. -/
def skipToStatement : Parser Unit :=
  loop () fun _ => do
    let next ← peek
    match next.kind with
    | .endOfText | .mark .closeBrace => return .done ()
    | .mark .semicolon =>
        let _ ← advance
        return .done ()
    | .mark .openBrace =>
        skipGroup
        return .more ()
    | _ =>
        if beginsStatement next then return .done ()
        else
          let _ ← advance
          return .more ()

/-- Gets past a broken statement. Where it failed without reading anything, its first token
is skipped whatever it is, unless the text ends there. -/
def recoverStatement (progress : Bool) : Parser Unit := do
  let next ← peekKind
  if progress || next = .endOfText then skipToStatement
  else
    match (← advance).kind with
    | .mark .semicolon => return ()
    | .mark .openBrace =>
        skipBlockRest
        skipToStatement
    | _ => skipToStatement

/-- Whether a token can begin a member. -/
def beginsMember (kind : Kind) : Bool :=
  kind.isName || kind == .stringLiteral || kind == .numberLiteral || kind == .privateName ||
    kind == .mark .openBracket || kind == .mark .openParen || kind == .mark .openAngle

/-- Skips to the next member: past a semicolon or comma, or up to the closing brace or a
token at the start of a line that can begin a member. -/
def skipToMember : Parser Unit :=
  loop () fun _ => do
    let next ← peek
    match next.kind with
    | .endOfText | .mark .closeBrace => return .done ()
    | .mark .semicolon | .mark .comma =>
        let _ ← advance
        return .done ()
    | kind =>
        if next.newlineBefore && beginsMember kind then return .done ()
        else if opensGroup kind then
          skipGroup
          return .more ()
        else
          let _ ← advance
          return .more ()

/-- Gets past a broken member. Where it failed without reading anything, its first token is
skipped whatever it is, unless the text ends there. -/
def recoverMember (progress : Bool) : Parser Unit := do
  let next ← peekKind
  if progress || next = .endOfText then skipToMember
  else
    match (← advance).kind with
    | .mark .semicolon | .mark .comma => return ()
    | _ => skipToMember

/-- Ends a statement: a semicolon, or else a line break, a closing brace or the end of the
text after it. -/
def endStatement : Parser Unit := do
  let next ← peek
  if next.kind = .mark .semicolon then
    let _ ← advance
  else if next.newlineBefore || next.kind = .mark .closeBrace || next.kind = .endOfText then
    return ()
  else expectOrReport (.mark .semicolon)

/-- Reports a body and skips it. -/
def skipBody : Parser Unit := do
  if (← peekKind) = .mark .openBrace then
    reportHere .implementation
    skipGroup

end DeclFile.Parser
