import DeclFile.Diagnostic.Cause
import DeclFile.Syntax.Statement
import DeclFile.Token.Stream

/-! # Parsers as descriptions

A parser is a description of how tokens are read: what is looked at, what is read, what is
reported, what is tried and given up. It is a value, built without any token at hand, and
refers to the nested constructs of the language as goals instead of containing their
parsers. Running it is the business of `DeclFile.Parser.Run`.
-/

namespace DeclFile

/-- The constructs that nest, each of which costs one level of nesting. -/
inductive Goal where
  | type
  /-- The operand of a type operator, perhaps in the bound of a conditional type. -/
  | operand (inBound : Bool)
  /-- The constraint of an inferred type, perhaps in the bound of a conditional type. -/
  | constraint (inBound : Bool)
  /-- The members of an interface or object type, up to the closing brace. -/
  | members
  /-- The members of a class, up to the closing brace. -/
  | classMembers
  /-- The statements after an opening brace, with the closing brace. -/
  | block
deriving DecidableEq, Repr

/-- What reaching a goal yields. -/
abbrev Goal.Result : Goal → Type
  | .type => Ty
  | .operand _ => Ty
  | .constraint _ => Option Ty
  | .members => List Member
  | .classMembers => List ClassMember
  | .block => List Statement

/-- One turn of a loop: going on with a new state, or the result. -/
inductive Step (β α : Type) where
  | more (state : β)
  | done (result : α)

/-- How a part of a parser ended: with a result, or by failing after reading some tokens or
none. -/
inductive Settled (α : Type) where
  | done (result : α)
  | failed (progress : Bool)

/-- A description of how tokens are read. -/
inductive Parser : Type → Type 1 where
  /-- Reads nothing and yields `result`. -/
  | pure {α : Type} (result : α) : Parser α
  /-- One parser and then, with its result, the next. -/
  | bind {α β : Type} (first : Parser α) (next : α → Parser β) : Parser β
  /-- Reads nothing and fails. -/
  | fail {α : Type} : Parser α
  /-- The token `n` places ahead, unread. -/
  | look (n : Nat) : Parser Token
  /-- Reads the next token. -/
  | advance : Parser Token
  /-- Adds a diagnostic. -/
  | report (diagnostic : Diagnostic) : Parser Unit
  /-- Adds the span from `start?`, or else from the next token, to the last token that `inner`
  reads. -/
  | withSpan {α : Type} (start? : Option Pos) (inner : Parser α) : Parser (α × Span)
  /-- Tries `inner`; unless it succeeds without a diagnostic, nothing has happened. -/
  | attempt {α : Type} (inner : Parser α) : Parser (Option α)
  /-- Goes on after `inner` even if it fails, keeping what it read and reported. -/
  | settle {α : Type} (inner : Parser α) : Parser (Settled α)
  /-- Takes turns from `init` on until one yields the result. -/
  | loop {β α : Type} (init : β) (turn : β → Parser (Step β α)) : Parser α
  /-- Reaches a goal one level deeper. -/
  | nested (goal : Goal) : Parser goal.Result

namespace Parser

instance : Monad Parser where
  pure := .pure
  bind := .bind

/-- The next token, unread. -/
def peek : Parser Token := .look 0

/-- The kind of the next token. -/
def peekKind : Parser Kind := do return (← peek).kind

/-- The kind of the token `n` places ahead. -/
def kindAhead (n : Nat) : Parser Kind := do return (← .look n).kind

/-- Whether the next token is of the given kind. -/
def nextIs (kind : Kind) : Parser Bool := do return (← peekKind) == kind

/-- Whether the next token begins a line. -/
def atLineStart : Parser Bool := do return (← peek).newlineBefore

/-- Reads the next token if it is of the given kind, and tells whether it was. -/
def skipIf (kind : Kind) : Parser Bool := do
  if (← peekKind) = kind then
    let _ ← advance
    return true
  else return false

/-- Reports a cause at the next token. -/
def reportHere (cause : Cause) : Parser Unit := do
  report (cause.at (← peek).span)

/-- Reports a cause that names the kind of the next token, and fails. -/
def refuse {α : Type} (cause : Kind → Cause) : Parser α := do
  let next ← peek
  report ((cause next.kind).at next.span)
  fail

/-- Reads a token of the given kind, which must be next. -/
def expect (kind : Kind) : Parser Token := do
  if (← peekKind) = kind then advance else refuse (.missingToken kind)

/-- The result of `inner`, or nothing where it fails; what it read and reported stays. -/
def optional {α : Type} (inner : Parser α) : Parser (Option α) := do
  match ← settle inner with
  | .done result => return some result
  | .failed _ => return none

/-- Reads a token of the given kind; if another is next, reports that and goes on. -/
def expectOrReport (kind : Kind) : Parser Unit := do
  let _ ← optional (expect kind)

/-- A parser whose result is made with the span it read. -/
def spanned {α β : Type} (make : α → Span → β) (inner : Parser α) : Parser β := do
  let (result, span) ← withSpan none inner
  return make result span

/-- One turn of collecting: a result or none, and whether to go on. -/
structure Turn (α : Type) where
  result? : Option α
  again : Bool

/-- Collects the results of turns until one says that it was the last. -/
def collect {α : Type} (turn : Parser (Turn α)) : Parser (List α) :=
  loop ([] : List α) fun collected => do
    let taken ← turn
    let collected := taken.result?.toList ++ collected
    return if taken.again then .more collected else .done collected.reverse

/-- An element and the comma after it, unless `close` is next. -/
def commaTurn {α : Type} (close : Kind) (element : Parser (Turn α)) : Parser (Turn α) := do
  let next ← peekKind
  if next = close || next = .endOfText then return ⟨none, false⟩
  let taken ← element
  if taken.again then return ⟨taken.result?, ← skipIf (.mark .comma)⟩
  else return taken

/-- Collects elements with commas between them, up to but not including `close`. A turn of
`element` that does not go on ends the list where it stands. -/
def commaSeparated {α : Type} (close : Kind) (element : Parser (Turn α)) : Parser (List α) :=
  collect (commaTurn close element)

/-- A turn that goes on only after a result. -/
def elementOrStop {α : Type} (inner : Parser α) : Parser (Turn α) := do
  let result? ← optional inner
  return ⟨result?, result?.isSome⟩

/-- Elements that follow one another with `mark` in front of each; one that fails ends them. -/
def afterEach {α : Type} (mark : Mark) (element : Parser α) : Parser (List α) :=
  collect do
    if ← skipIf (.mark mark) then elementOrStop element else return ⟨none, false⟩

end Parser

end DeclFile
