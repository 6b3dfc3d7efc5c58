import DeclFile.Parsed

/-! # Reading in place

Running a parser turns values into values, so that going back means keeping the old source.
Here the same parsers run on one reader whose state changes as they go: besides the source,
the diagnostics and the last token, it counts the levels of nesting that are active and
remembers whether the bound of a conditional type is being read. A snapshot holds neither of
these two, a level is left by counting down, and what stands in a bound is asked of the
reader and not of the goal. A span goes on to the last token that was read, whichever that is.
-/

namespace DeclFile

/-- The state of a reader with `limit` levels of nesting. -/
structure Reader (σ : Type) (limit : Nat) where
  /-- The file that the spans are of. -/
  file : SourceId
  source : σ
  diagnostics : List Diagnostic
  /-- The span of the last token read. -/
  lastRead : Span
  /-- How many tokens were read. -/
  consumed : Nat
  /-- How many levels of nesting are active. -/
  depth : Nat
  /-- Whether the bound of a conditional type is being read. -/
  inBound : Bool
  depth_le : depth ≤ limit

/-- What is kept of a reader to go back to. -/
structure Snapshot (σ : Type) where
  source : σ
  /-- How many diagnostics there were. -/
  diagnostics : Nat
  lastRead : Span
  consumed : Nat

/-- What is done with a reader: it leaves a result, or none where it failed, and the reader
as it is then. There is neither where a level is left although none is active. -/
def Action (σ : Type) (limit : Nat) (α : Type) : Type :=
  Reader σ limit → Option (Option α × Reader σ limit)

variable {σ α β : Type} {limit : Nat}

namespace Reader

/-- The reader one level deeper. -/
def deeper (reader : Reader σ limit) (h : reader.depth < limit) : Reader σ limit :=
  { reader with depth := reader.depth + 1, depth_le := h }

/-- What there is to go back to. -/
def snapshot (reader : Reader σ limit) : Snapshot σ :=
  ⟨reader.source, reader.diagnostics.length, reader.lastRead, reader.consumed⟩

@[simp] theorem source_deeper (reader : Reader σ limit) (h : reader.depth < limit) :
    (reader.deeper h).source = reader.source :=
  rfl

@[simp] theorem snapshot_deeper (reader : Reader σ limit) (h : reader.depth < limit) :
    (reader.deeper h).snapshot = reader.snapshot :=
  rfl

/-- The reader after going back. -/
def restore (reader : Reader σ limit) (saved : Snapshot σ) : Reader σ limit :=
  { reader with
    source := saved.source
    diagnostics := reader.diagnostics.take saved.diagnostics
    lastRead := saved.lastRead
    consumed := saved.consumed }

end Reader

namespace Action

/-- One action and then, with its result, the next. -/
def andThen (first : Action σ limit α) (next : α → Action σ limit β) : Action σ limit β :=
  fun reader =>
    match first reader with
    | some (some result, after) => next result after
    | some (none, after) => some (none, after)
    | none => none

instance : Monad (Action σ limit) where
  pure result := fun reader => some (some result, reader)
  bind := andThen

/-- Fails. -/
def fail : Action σ limit α := fun reader => some (none, reader)

/-- What `question` says of the reader. -/
def ask (question : Reader σ limit → α) : Action σ limit α :=
  fun reader => some (some (question reader), reader)

/-- Changes the reader. -/
def change (next : Reader σ limit → Reader σ limit) : Action σ limit Unit :=
  fun reader => some (some (), next reader)

/-- Goes on where `inner` fails. -/
def caught (inner : Action σ limit α) : Action σ limit (Option α) :=
  fun reader => (inner reader).map fun (result?, after) => (some result?, after)

/-- The result that there may be. -/
def ofResult? : Option α → Action σ limit α
  | some result => pure result
  | none => fail

/-- Enters a level, unless all of them are active, and tells whether it did. -/
def enter : Action σ limit Bool := fun reader =>
  if h : reader.depth < limit then some (some true, reader.deeper h)
  else some (some false, reader)

/-- Leaves a level. -/
def leave : Action σ limit Unit := fun reader =>
  match h : reader.depth with
  | 0 => none
  | depth + 1 =>
      some (some (), { reader with
        depth := depth, depth_le := Nat.le_trans (Nat.le_succ _) (h ▸ reader.depth_le) })

/-- Leaves a level after `inner`, however that ended. -/
def leaving (inner : Action σ limit α) : Action σ limit α := do
  let result? ← caught inner
  leave
  ofResult? result?

/-- Does `inner` one level deeper, or `refused` where there is none. -/
def oneLevelDown (refused inner : Action σ limit α) : Action σ limit α := do
  if ← enter then leaving inner else refused

/-- Does `inner` in the bound of a conditional type or outside of one. -/
def underBound (inBound : Bool) (inner : Action σ limit α) : Action σ limit α := do
  let before ← ask Reader.inBound
  change ({ · with inBound })
  let result? ← caught inner
  change ({ · with inBound := before })
  ofResult? result?

/-- Whether nothing was reported since. -/
def quietSince (saved : Snapshot σ) : Action σ limit Bool :=
  ask (·.diagnostics.length == saved.diagnostics)

/-- Tries `inner` and goes back unless it succeeds without a diagnostic. -/
def attempt (inner : Action σ limit α) : Action σ limit (Option α) := do
  let saved ← ask Reader.snapshot
  let result? ← caught inner
  if result?.isSome && (← quietSince saved) then return result?
  else
    change (·.restore saved)
    return none

/-- How `inner` ended, and whether it read anything. -/
def settle (inner : Action σ limit α) : Action σ limit (Settled α) := do
  let before ← ask Reader.consumed
  match ← caught inner with
  | some result => return .done result
  | none => return .failed (before < (← ask Reader.consumed))

variable [TokenSource σ]

/-- The next token, unread. -/
def peek : Action σ limit Token := ask fun reader => TokenSource.peek reader.source

/-- Reads the next token. The end of the text does not count. -/
def advance : Action σ limit Token := do
  let token ← peek
  change fun reader => { reader with source := TokenSource.advance reader.source }
  if token.kind ≠ .endOfText then
    change fun reader =>
      { reader with lastRead := token.span, consumed := reader.consumed + 1 }
  return token

/-- Adds a diagnostic. -/
def report (diagnostic : Diagnostic) : Action σ limit Unit :=
  change fun reader => { reader with diagnostics := reader.diagnostics ++ [diagnostic] }

/-- Adds the span from `start?`, or else from the next token, to the last token that was read. -/
def withSpan (start? : Option Pos) (inner : Action σ limit α) : Action σ limit (α × Span) := do
  let start := start?.getD (← peek).span.start
  let result ← inner
  return (result, ← ask fun reader => .between reader.file start reader.lastRead.stop)

/-- Takes at most the given number of turns. -/
def repeatTurns (turn : β → Action σ limit (Step β α)) : (turns : Nat) → β → Action σ limit α
  | 0, _ => fail
  | turns + 1, state => do
      match ← turn state with
      | .more next => repeatTurns turn turns next
      | .done result => return result

/-- Takes turns until one yields the result. Each reads a token or is the last. -/
def loop (init : β) (turn : β → Action σ limit (Step β α)) : Action σ limit α := do
  repeatTurns turn ((← ask fun reader => TokenSource.unread reader.source) + 1) init

end Action

namespace Parser

variable [TokenSource σ]

/-- Runs a parser in place, reaching goals by `call`. -/
def perform (call : (goal : Goal) → Action σ limit goal.Result) {α : Type} :
    Parser α → Action σ limit α
  | .pure result => do return result
  | .bind first next => do perform call (next (← perform call first))
  | .fail => .fail
  | .look n => .ask fun reader => TokenSource.ahead reader.source n
  | .advance => .advance
  | .report diagnostic => .report diagnostic
  | .withSpan start? inner => .withSpan start? (perform call inner)
  | .attempt inner => .attempt (perform call inner)
  | .settle inner => .settle (perform call inner)
  | .loop init turn => .loop init fun state => perform call (turn state)
  | .nested goal => call goal

end Parser

namespace Action

variable [TokenSource σ] (call : (goal : Goal) → Action σ limit goal.Result)

/-- What follows the bound of a conditional type, with the bound. -/
def conditionalRest : Action σ limit (Ty × Ty × Ty) := do
  let _ ← advance
  let bound ← underBound true ((Parser.unionType true).perform call)
  let _ ← (Parser.expect (.mark .question)).perform call
  let whenTrue ← call .type
  let _ ← (Parser.expect (.mark .colon)).perform call
  return (bound, whenTrue, ← call .type)

/-- A conditional type, or its first part where the rest is missing or broken. -/
def conditionalType : Action σ limit Ty := do
  let ((check, rest?), span) ← withSpan none do
    let check ← (Parser.unionType false).perform call
    let next ← Parser.peek.perform call
    if next.kind = .word .extends && !next.newlineBefore then
      return (check, ← caught (conditionalRest call))
    else return (check, none)
  match rest? with
  | some (bound, whenTrue, whenFalse) =>
      return ⟨.conditional check bound whenTrue whenFalse, span⟩
  | none => return check

/-- The constraint of an inferred type. The level is entered before the snapshot is taken
and left before it is gone back to. -/
def inferConstraint (refused : Action σ limit (Option Ty)) : Action σ limit (Option Ty) := do
  if ← enter then
    let saved ← ask Reader.snapshot
    let type? ← caught <| leaving do
      let _ ← advance
      underBound true ((Parser.unionType true).perform call)
    let clean ← quietSince saved
    let next ← Parser.peekKind.perform call
    let keep := (← ask Reader.inBound) || next ≠ .mark .question
    if type?.isSome && clean && keep then return type?
    else
      change (·.restore saved)
      return none
  else refused

/-- How a goal is reached in place, further goals by `call`. -/
def procedure : (goal : Goal) → Action σ limit goal.Result
  | .type => oneLevelDown (refused .type) (underBound false (conditionalType call))
  | .operand inBound => oneLevelDown (refused (.operand inBound)) do
      (Parser.operatorType (← ask Reader.inBound)).perform call
  | .constraint inBound => inferConstraint call (refused (.constraint inBound))
  | .members => oneLevelDown (refused .members) (Parser.members.perform call)
  | .classMembers => oneLevelDown (refused .classMembers) (Parser.classMembers.perform call)
  | .block => do
      if ← enter then
        let found ← leaving ((Parser.statements true (.mark .closeBrace)).perform call)
        (Parser.expectOrReport (.mark .closeBrace)).perform call
        return found
      else refused .block
where
  /-- What is done where no level is left. -/
  refused (goal : Goal) : Action σ limit goal.Result := (Parser.refusal limit goal).perform call

/-- Reaches a goal with the given number of levels left. -/
def reach : (levels : Nat) → (goal : Goal) → Action σ limit goal.Result
  | 0 => procedure fun _ => fail
  | levels + 1 => procedure (reach levels)

end Action

/-- Runs a parser in place with the levels that are left. -/
def Parser.inPlace [TokenSource σ] (parser : Parser α) : Action σ limit α := fun reader =>
  parser.perform (Action.reach (limit - reader.depth)) reader

/-- A reader before it read anything. -/
def Reader.outset (tokens : σ) (source : SourceId) : Reader σ limit :=
  ⟨source, tokens, [], .point source .start, 0, 0, false, Nat.zero_le _⟩

/-- Reads tokens as a declaration file in place. -/
def parseInPlace [TokenSource σ] (tokens : σ) (source : SourceId) (limits : Limits) :
    Option Parsed := do
  let start := Span.point source .start
  match excessTokens? tokens limits with
  | some count =>
      return ⟨⟨source, [], [], start⟩, [(Cause.tooManyTokens count limits.maxTokens).at start]⟩
  | none =>
      let directives := (TokenSource.directives tokens).map Reference.ofDirective
      let references := directives.filterMap Prod.fst
      let reader : Reader σ limits.maxDepth := .outset tokens source
      let (statements?, reader) ← (Parser.statements false .endOfText).inPlace
        { reader with diagnostics := directives.flatMap Prod.snd }
      let stop := moduleEnd (TokenSource.peek reader.source).span.stop references
      return ⟨⟨source, statements?.getD [], references, ⟨source, .start, stop⟩⟩,
        reader.diagnostics⟩

end DeclFile
