import DeclFile.Parser.Basic

/-! # Running a parser

Running a parser over a token source gives its result, the diagnostics it reported, the span
of the last token it read and the source that is left. Nothing else is carried along: what a
parser does depends on the unread tokens only, and on the file that its spans are of. Goals are
handed to a function for them, and giving a grammar finitely many levels of nesting makes that
function. A loop takes at most one turn more than there are unread tokens, which is enough as
long as every turn that goes on reads one.
-/

namespace DeclFile

/-- What running a parser comes to. -/
structure Outcome (σ α : Type) where
  /-- The result, unless the parser failed. -/
  result? : Option α
  /-- The diagnostics in the order they were reported. -/
  reported : List Diagnostic
  /-- The span of the last token read, if any was. -/
  lastRead : Option Span
  /-- The source that is left. -/
  rest : σ

namespace Outcome

variable {σ α β : Type}

/-- A result without any effect. -/
def ofResult (result : α) (source : σ) : Outcome σ α := ⟨some result, [], none, source⟩

/-- A failure without any effect. -/
def failure (source : σ) : Outcome σ α := ⟨none, [], none, source⟩

/-- The outcome `second` of what ran after `first`, with the effects of both. -/
@[inline] def followedBy (first : Outcome σ α) (second : Outcome σ β) : Outcome σ β :=
  ⟨second.result?, first.reported ++ second.reported, second.lastRead.or first.lastRead,
    second.rest⟩

/-- An outcome with another result. -/
@[inline] def withResult? (outcome : Outcome σ α) (result? : Option β) : Outcome σ β :=
  ⟨result?, outcome.reported, outcome.lastRead, outcome.rest⟩

/-- What `next` comes to after `first`, where `first` succeeded. -/
@[inline] def andThen (first : Outcome σ α) (next : α → σ → Outcome σ β) : Outcome σ β :=
  match first.result? with
  | some result => first.followedBy (next result first.rest)
  | none => first.withResult? none

/-- How it ended, as a result. -/
def settled (outcome : Outcome σ α) : Settled α :=
  match outcome.result? with
  | some result => .done result
  | none => .failed outcome.lastRead.isSome

/-- The outcome of trying: the same if it succeeded without a diagnostic, and otherwise no
effect on `source`. -/
def attempted (outcome : Outcome σ α) (source : σ) : Outcome σ (Option α) :=
  match outcome.result?, outcome.reported with
  | some result, [] => outcome.withResult? (some (some result))
  | _, _ => ofResult none source

/-- Trying either keeps a success without a diagnostic or has no effect. -/
theorem attempted_cases (outcome : Outcome σ α) (source : σ) :
    (∃ result, outcome.result? = some result ∧ outcome.reported = [] ∧
      outcome.attempted source = outcome.withResult? (some (some result))) ∨
    outcome.attempted source = .ofResult none source := by
  unfold attempted
  split
  next result hresult hreported => exact .inl ⟨result, hresult, hreported, rfl⟩
  next => exact .inr rfl

/-- The span in `file` from `start` to the last token read, or the empty one at `start` where that
token ends before it. Every part of a text that gets a span reads a token of its own, so that the
last one is never one in front of the part. -/
def spanFrom (outcome : Outcome σ α) (file : SourceId) (start : Pos) : Span :=
  .between file start ((outcome.lastRead.map Span.stop).getD start)

/-- The outcome with the span in `file` from `start` on. -/
def spannedFrom (outcome : Outcome σ α) (file : SourceId) (start : Pos) : Outcome σ (α × Span) :=
  outcome.withResult? (outcome.result?.map (·, outcome.spanFrom file start))

end Outcome

/-- What a parser is run with: the file that its spans are of, and how goals are reached. -/
structure Reach (σ : Type) where
  file : SourceId
  goal : (goal : Goal) → σ → Outcome σ goal.Result

namespace Parser

variable {σ : Type} [TokenSource σ]

/-- Takes turns, at most `turns` of them; `sofar` is what came before. -/
@[specialize] def iterate {β α : Type} (turn : β → σ → Outcome σ (Step β α)) :
    (turns : Nat) → β → (sofar : Outcome σ Unit) → Outcome σ α
  | 0, _, sofar => sofar.withResult? none
  | turns + 1, state, sofar =>
      let taken := turn state sofar.rest
      match taken.result? with
      | some (.more next) => iterate turn turns next (sofar.followedBy (taken.withResult? (some ())))
      | some (.done result) => sofar.followedBy (taken.withResult? (some result))
      | none => sofar.followedBy (taken.withResult? none)

/-- Reads the next token of a source. The end of the text can be read again and again and
does not count as a token read. -/
@[inline] def readToken (source : σ) : Outcome σ Token :=
  let token := TokenSource.peek source
  ⟨some token, [], if token.kind = .endOfText then none else some token.span,
    TokenSource.advance source⟩

/-- Runs a parser with `reach`. -/
@[specialize] def runWith (reach : Reach σ) {α : Type} : Parser α → σ → Outcome σ α
  | .pure result, source => .ofResult result source
  | .bind first next, source =>
      (runWith reach first source).andThen fun result rest => runWith reach (next result) rest
  | .fail, source => .failure source
  | .look n, source => .ofResult (TokenSource.ahead source n) source
  | .advance, source => readToken source
  | .report diagnostic, source => ⟨some (), [diagnostic], none, source⟩
  | .withSpan start? inner, source =>
      (runWith reach inner source).spannedFrom reach.file
        (start?.getD (TokenSource.peek source).span.start)
  | .attempt inner, source => (runWith reach inner source).attempted source
  | .settle inner, source =>
      let outcome := runWith reach inner source
      outcome.withResult? (some outcome.settled)
  | .loop init turn, source =>
      iterate (fun state rest => runWith reach (turn state) rest) (TokenSource.unread source + 1)
        init (.ofResult () source)
  | .nested goal, source => reach.goal goal source

end Parser

/-- A grammar: how each goal is reached, and what is done where no level is left. -/
structure Grammar where
  rule : (goal : Goal) → Parser goal.Result
  refusal : (goal : Goal) → Parser goal.Result

namespace Grammar

variable {σ : Type} [TokenSource σ]

/-- Reaches goals in `file` with the given number of levels left. -/
@[specialize] def reach (grammar : Grammar) (file : SourceId) : (levels : Nat) → Reach σ
  | 0 => ⟨file, fun goal =>
      (grammar.refusal goal).runWith ⟨file, fun _ source => .failure source⟩⟩
  | levels + 1 => ⟨file, fun goal => (grammar.rule goal).runWith (grammar.reach file levels)⟩

@[simp] theorem file_reach (grammar : Grammar) (file : SourceId) (levels : Nat) :
    (grammar.reach file levels : Reach σ).file = file := by
  cases levels <;> rfl

/-- Runs a parser in `file` with the given number of levels. -/
@[inline] def run (grammar : Grammar) (file : SourceId) (levels : Nat) {α : Type}
    (parser : Parser α) (source : σ) : Outcome σ α :=
  parser.runWith (grammar.reach file levels) source

end Grammar

end DeclFile
