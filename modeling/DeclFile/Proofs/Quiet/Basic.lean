import Mathlib.Data.List.Forall2
import DeclFile.Proofs.Meets

/-! # Reading without a word

Where it is known how the tokens ahead are written, a parser can be followed step by step.
It either reads some of them quietly and gives a result, or it complains. Attempts take what
is given quietly and undo the rest. Everything is said of symbols, the tokens without their
places.
-/

namespace DeclFile

/-- A token as it is written, wherever that is. -/
structure Symbol where
  kind : Kind
  text : String
deriving DecidableEq, Repr

namespace Symbol

def mark (sign : Mark) : Symbol := ⟨.mark sign, sign.spelling⟩

def word (keyword : Keyword) : Symbol := ⟨.word keyword, keyword.spelling⟩

@[simp] theorem kind_mark (sign : Mark) : (mark sign).kind = .mark sign := rfl

@[simp] theorem kind_word (keyword : Keyword) : (word keyword).kind = .word keyword := rfl

end Symbol

/-- The token is written like the symbol. -/
structure Token.Matches (token : Token) (symbol : Symbol) : Prop where
  kind : token.kind = symbol.kind
  text : token.text = symbol.text

instance (token : Token) (symbol : Symbol) : Decidable (token.Matches symbol) :=
  decidable_of_iff (token.kind = symbol.kind ∧ token.text = symbol.text)
    ⟨fun h => ⟨h.1, h.2⟩, fun h => ⟨h.kind, h.text⟩⟩

/-- The unread tokens are written like the symbols, on any lines. -/
def TokenStream.Matches (stream : TokenStream) (symbols : List Symbol) : Prop :=
  List.Forall₂ Token.Matches stream.pending symbols

instance (stream : TokenStream) (symbols : List Symbol) : Decidable (stream.Matches symbols) :=
  inferInstanceAs (Decidable (List.Forall₂ Token.Matches stream.pending symbols))

/-- The token is written like the symbol and no line ends in front of it. -/
structure Token.Shows (token : Token) (symbol : Symbol) : Prop where
  kind : token.kind = symbol.kind
  text : token.text = symbol.text
  sameLine : token.newlineBefore = false

instance (token : Token) (symbol : Symbol) : Decidable (token.Shows symbol) :=
  decidable_of_iff
    (token.kind = symbol.kind ∧ token.text = symbol.text ∧ token.newlineBefore = false)
    ⟨fun h => ⟨h.1, h.2.1, h.2.2⟩, fun h => ⟨h.kind, h.text, h.sameLine⟩⟩

/-- The unread tokens are written like the symbols, on one line. -/
def TokenStream.Spells (stream : TokenStream) (symbols : List Symbol) : Prop :=
  List.Forall₂ Token.Shows stream.pending symbols

instance (stream : TokenStream) (symbols : List Symbol) : Decidable (stream.Spells symbols) :=
  inferInstanceAs (Decidable (List.Forall₂ Token.Shows stream.pending symbols))

/-! ## What lies ahead -/

/-- What stands around symbols: what is left behind them, and whether lines may end between them. -/
class Layout where
  behind : TokenStream
  broken : Bool

namespace Layout

/-- All symbols are on one line. -/
class OneLine [Layout] : Prop where
  unbroken : Layout.broken = false

/-- One line, and what is left behind it. -/
@[reducible] def line (behind : TokenStream) : Layout := ⟨behind, false⟩

instance (behind : TokenStream) : @OneLine (line behind) :=
  letI := line behind
  ⟨rfl⟩

/-- Any lines, and what is left behind them. -/
@[reducible] def lines (behind : TokenStream) : Layout := ⟨behind, true⟩

end Layout

/-- The token is written like the symbol, in this layout. -/
structure Token.Stands [Layout] (token : Token) (symbol : Symbol) : Prop where
  kind : token.kind = symbol.kind
  text : token.text = symbol.text
  unbroken : Layout.broken = false → token.newlineBefore = false

theorem Token.Stands.sameLine [Layout] [Layout.OneLine] {token : Token} {symbol : Symbol}
    (h : token.Stands symbol) : token.newlineBefore = false :=
  h.unbroken Layout.OneLine.unbroken

/-- What may lie ahead where a parser begins or ends. -/
def Ahead := TokenStream → Prop

/-- The unread tokens are written like the symbols, with those of the layout behind them. -/
def Heads [Layout] (symbols : List Symbol) : Ahead := fun stream =>
  ∃ tokens, List.Forall₂ Token.Stands tokens symbols ∧
    stream = { Layout.behind with pending := tokens ++ Layout.behind.pending }

instance [Layout] : Coe (List Symbol) Ahead := ⟨Heads⟩

/-- The kind of the token `n` places ahead. -/
def kindAt [Layout] : List Symbol → Nat → Kind
  | [], n => (Layout.behind.pending[n]?.map Token.kind).getD .endOfText
  | symbol :: _, 0 => symbol.kind
  | _ :: symbols, n + 1 => kindAt symbols n

/-- Whether it is known that a line ends in front of what stands behind the symbols, and nothing
stands before that. -/
def lineAt [Layout] : List Symbol → Bool
  | [] => (Layout.behind.pending.head?.map Token.newlineBefore).getD false
  | _ :: _ => false

@[simp] theorem kindAt_zero [Layout] (symbol : Symbol) (symbols : List Symbol) :
    kindAt (symbol :: symbols) 0 = symbol.kind := rfl

@[simp] theorem kindAt_succ [Layout] (symbol : Symbol) (symbols : List Symbol) (n : Nat) :
    kindAt (symbol :: symbols) (n + 1) = kindAt symbols n := rfl

/-- The stream with all tokens but the end of the text read. -/
def TokenStream.finished (stream : TokenStream) : TokenStream := { stream with pending := [] }

theorem TokenStream.Spells.heads {stream : TokenStream} {symbols : List Symbol}
    (h : stream.Spells symbols) : @Heads (.line stream.finished) symbols stream :=
  letI := Layout.line stream.finished
  ⟨stream.pending, h.imp fun _ _ hshows => ⟨hshows.kind, hshows.text, fun _ => hshows.sameLine⟩,
    congrArg (fun pending => { stream with pending }) (List.append_nil _).symm⟩

theorem TokenStream.Matches.heads {stream : TokenStream} {symbols : List Symbol}
    (h : stream.Matches symbols) : @Heads (.lines stream.finished) symbols stream :=
  letI := Layout.lines stream.finished
  ⟨stream.pending, h.imp fun _ _ hmatches => ⟨hmatches.kind, hmatches.text, nofun⟩,
    congrArg (fun pending => { stream with pending }) (List.append_nil _).symm⟩

namespace Heads

variable [Layout] {stream : TokenStream} {symbol : Symbol} {symbols : List Symbol}

theorem nil_iff : Heads [] stream ↔ stream = Layout.behind := by
  simp [Heads]

theorem cons_iff : Heads (symbol :: symbols) stream ↔
    ∃ token rest, stream.pending = token :: rest ∧ token.Stands symbol ∧
      Heads symbols { stream with pending := rest } := by
  constructor
  · rintro ⟨_, _ | ⟨hstands, htokens⟩, rfl⟩
    exact ⟨_, _, rfl, hstands, _, htokens, rfl⟩
  · rintro ⟨token, rest, hpending, hstands, tokens, htokens, hrest⟩
    refine ⟨token :: tokens, .cons hstands htokens, ?_⟩
    cases stream
    cases hpending
    simp_all

theorem length_pending (h : Heads symbols stream) :
    stream.pending.length = symbols.length + Layout.behind.pending.length := by
  obtain ⟨tokens, htokens, rfl⟩ := h
  rw [List.length_append, htokens.length_eq]

/-- The more symbols there are, the more tokens are unread. -/
theorem length_lt {others : List Symbol} {rest : TokenStream}
    (hless : others.length < symbols.length) (h : Heads symbols stream) (hrest : Heads others rest) :
    rest.pending.length < stream.pending.length := by
  rw [h.length_pending, hrest.length_pending]
  omega

theorem kind_ahead (h : Heads symbols stream) (n : Nat) :
    (stream.ahead n).kind = kindAt symbols n := by
  induction symbols generalizing stream n with
  | nil =>
      rw [TokenStream.ahead, nil_iff.mp h, kindAt]
      cases Layout.behind.pending[n]? with
      | none => exact Layout.behind.last_kind
      | some token => rfl
  | cons symbol symbols ih =>
      obtain ⟨token, rest, hpending, hstands, hrest⟩ := cons_iff.mp h
      cases n with
      | zero => simpa [TokenStream.ahead, hpending] using hstands.kind
      | succ n => simpa [TokenStream.ahead, hpending] using ih hrest n

theorem newlineBefore_peek (h : Heads symbols stream) (hline : lineAt symbols = true) :
    stream.peek.newlineBefore = true := by
  cases symbols with
  | nil =>
      rw [TokenStream.peek, nil_iff.mp h]
      cases hbehind : Layout.behind.pending with
      | nil => simp [lineAt, hbehind] at hline
      | cons token rest => simpa [lineAt, hbehind] using hline
  | cons symbol symbols => simp [lineAt] at hline

theorem stands_peek (h : Heads (symbol :: symbols) stream) : stream.peek.Stands symbol := by
  obtain ⟨token, rest, hpending, hstands, -⟩ := cons_iff.mp h
  simpa [TokenStream.peek, hpending] using hstands

theorem advance (h : Heads (symbol :: symbols) stream) : Heads symbols stream.advance := by
  obtain ⟨token, rest, hpending, -, hrest⟩ := cons_iff.mp h
  simpa [TokenStream.advance, hpending] using hrest

end Heads

namespace Parser

variable {α β : Type}

/-- The parser reads from the first symbols to the others without a word, and its result
satisfies the condition. -/
def Gives (reach : Reach TokenStream) (parser : Parser α) (before after : Ahead) (Q : α → Prop) :
    Prop :=
  ∀ source, before source → ∃ result lastRead rest,
    parser.runWith reach source = ⟨some result, [], lastRead, rest⟩ ∧ after rest ∧ Q result

/-- The parser reports something. -/
def Complains (reach : Reach TokenStream) (parser : Parser α) (before : Ahead) : Prop :=
  ∀ source, before source → (parser.runWith reach source).reported ≠ []

/-- The parser has no result. -/
def Fails (reach : Reach TokenStream) (parser : Parser α) (before : Ahead) : Prop :=
  ∀ source, before source → (parser.runWith reach source).result? = none

section

variable {reach : Reach TokenStream} {before middle after : Ahead}

namespace Gives

theorem weaken {parser : Parser α} {wide : Ahead} {Q : α → Prop}
    (h : parser.Gives reach wide after Q) (himp : ∀ source, before source → wide source) :
    parser.Gives reach before after Q :=
  fun source hsource => h source (himp source hsource)

theorem widen {parser : Parser α} {narrow : Ahead} {Q : α → Prop}
    (h : parser.Gives reach before narrow Q) (himp : ∀ rest, narrow rest → after rest) :
    parser.Gives reach before after Q := by
  intro source hsource
  obtain ⟨result, lastRead, rest, hrun, hrest, hresult⟩ := h source hsource
  exact ⟨result, lastRead, rest, hrun, himp rest hrest, hresult⟩

theorem mono {parser : Parser α} {P Q : α → Prop} (h : parser.Gives reach before after P)
    (himp : ∀ result, P result → Q result) : parser.Gives reach before after Q := by
  intro source hsource
  obtain ⟨result, lastRead, rest, hrun, hrest, hresult⟩ := h source hsource
  exact ⟨result, lastRead, rest, hrun, hrest, himp result hresult⟩

theorem pure {result : α} {Q : α → Prop} (h : Q result) :
    (Pure.pure result : Parser α).Gives reach before before Q :=
  fun source hsource => ⟨result, none, source, rfl, hsource, h⟩

theorem bind {first : Parser α} {next : α → Parser β} {P : α → Prop} {Q : β → Prop}
    (hfirst : first.Gives reach before middle P)
    (hnext : ∀ result, P result → (next result).Gives reach middle after Q) :
    (first >>= next).Gives reach before after Q := by
  intro source hsource
  obtain ⟨result, lastRead, rest, hrun, hrest, hresult⟩ := hfirst source hsource
  obtain ⟨final, lastRead', rest', hrun', hrest', hfinal⟩ := hnext result hresult rest hrest
  refine ⟨final, lastRead'.or lastRead, rest', ?_, hrest', hfinal⟩
  rw [Meets.runWith_bind, hrun]
  simp only [Outcome.andThen, hrun', Outcome.followedBy, List.nil_append]

/-- A result that is known may be put in its place. -/
theorem known {first : Parser α} {next : α → Parser β} {result : α} {Q : β → Prop}
    (hfirst : first.Gives reach before middle (· = result))
    (hnext : (next result).Gives reach middle after Q) :
    (first >>= next).Gives reach before after Q :=
  hfirst.bind fun _ hresult => hresult ▸ hnext

/-- Nothing is read for a result that is at hand. -/
theorem pure_bind (result : α) {next : α → Parser β} {Q : β → Prop}
    (hnext : (next result).Gives reach before after Q) :
    (Pure.pure result >>= next).Gives reach before after Q :=
  known (pure rfl) hnext

theorem map {parser : Parser α} {f : α → β} {Q : β → Prop}
    (h : parser.Gives reach before after fun result => Q (f result)) :
    (f <$> parser).Gives reach before after Q :=
  bind h fun _ hresult => pure hresult

theorem kindAhead_of {n : Nat} {Q : Kind → Prop}
    (h : ∀ source, before source → Q (source.ahead n).kind) :
    (Parser.kindAhead n).Gives reach before before Q :=
  fun source hsource => ⟨_, none, source, rfl, hsource, h source hsource⟩

/-! ## Spans, attempts and failures -/

theorem withSpan {start? : Option Pos} {inner : Parser α} {Q : α × Span → Prop}
    (h : inner.Gives reach before after fun result => ∀ span, Q (result, span)) :
    (Parser.withSpan start? inner).Gives reach before after Q := by
  intro source hsource
  obtain ⟨result, lastRead, rest, hrun, hrest, hresult⟩ := h source hsource
  refine ⟨(result, Outcome.spanFrom ⟨some result, [], lastRead, rest⟩ reach.file
    (start?.getD source.peek.span.start)), lastRead, rest, ?_, hrest, hresult _⟩
  rw [runWith, hrun]
  rfl

theorem spanned {inner : Parser α} {make : α → Span → β} {Q : β → Prop}
    (h : inner.Gives reach before after fun result => ∀ span, Q (make result span)) :
    (Parser.spanned make inner).Gives reach before after Q :=
  (withSpan (Q := fun found => Q (make found.1 found.2)) h).bind fun _ hfound => .pure hfound

theorem attempt {inner : Parser α} {Q : Option α → Prop}
    (h : inner.Gives reach before after fun result => Q (some result)) :
    (Parser.attempt inner).Gives reach before after Q := by
  intro source hsource
  obtain ⟨result, lastRead, rest, hrun, hrest, hresult⟩ := h source hsource
  refine ⟨some result, lastRead, rest, ?_, hrest, hresult⟩
  rw [runWith, hrun]
  rfl

/-- An attempt with a complaint is undone. -/
theorem attempt_complains {inner : Parser α} (h : inner.Complains reach before) :
    (Parser.attempt inner).Gives reach before before (· = none) := by
  intro source hsource
  refine ⟨none, none, source, ?_, hsource, rfl⟩
  have hinner := h source hsource
  rw [runWith]
  unfold Outcome.attempted
  split
  next _ hreported => exact absurd hreported hinner
  next => rfl

/-- An attempt without a result is undone. -/
theorem attempt_fails {inner : Parser α} (h : inner.Fails reach before) :
    (Parser.attempt inner).Gives reach before before (· = none) := by
  intro source hsource
  refine ⟨none, none, source, ?_, hsource, rfl⟩
  rw [runWith, Outcome.attempted, h source hsource]
  rfl

theorem settle {inner : Parser α} {Q : Settled α → Prop}
    (h : inner.Gives reach before after fun result => Q (.done result)) :
    (Parser.settle inner).Gives reach before after Q := by
  intro source hsource
  obtain ⟨result, lastRead, rest, hrun, hrest, hresult⟩ := h source hsource
  refine ⟨.done result, lastRead, rest, ?_, hrest, hresult⟩
  rw [runWith, hrun]
  rfl

theorem optional {inner : Parser α} {Q : Option α → Prop}
    (h : inner.Gives reach before after fun result => Q (some result)) :
    (Parser.optional inner).Gives reach before after Q :=
  (settle (Q := fun settled => ∃ result, settled = .done result ∧ Q (some result))
    (h.mono fun result hresult => ⟨result, rfl, hresult⟩)).bind fun _ hsettled => by
      obtain ⟨result, rfl, hresult⟩ := hsettled
      exact .pure hresult

/-- A goal is reached by its rule, with one level fewer for what is nested in it. -/
theorem nested {grammar : Grammar} {file : SourceId} {levels : Nat} {goal : Goal}
    {Q : goal.Result → Prop}
    (h : (grammar.rule goal).Gives (grammar.reach file levels) before after Q) :
    (Parser.nested goal).Gives (grammar.reach file (levels + 1)) before after Q :=
  h

end Gives

/-! ## Loops -/

/-- Taking turns from a state reads from the first symbols to the others without a word. -/
def Cycles (reach : Reach TokenStream) (turn : β → Parser (Step β α)) (state : β)
    (before after : Ahead) (Q : α → Prop) : Prop :=
  ∀ source, before source → ∃ result lastRead rest,
    Evaluates.Iterates (fun state rest => (turn state).runWith reach rest) state source
      ⟨some result, [], lastRead, rest⟩ ∧ after rest ∧ Q result

namespace Cycles

variable {turn : β → Parser (Step β α)} {state : β} {Q : α → Prop}

/-- A turn that goes on has read a token. -/
theorem step {P : β → Prop}
    (hturn : (turn state).Gives reach before middle fun step => ∃ next, step = .more next ∧ P next)
    (hless : ∀ source rest, before source → middle rest →
      rest.pending.length < source.pending.length)
    (hnext : ∀ next, P next → Cycles reach turn next middle after Q) :
    Cycles reach turn state before after Q := by
  intro source hsource
  obtain ⟨_, lastRead, rest, hrun, hrest, next, rfl, hstate⟩ := hturn source hsource
  obtain ⟨result, lastRead', rest', hiterates, hrest', hresult⟩ := hnext next hstate rest hrest
  refine ⟨result, lastRead'.or lastRead, rest', ?_, hrest', hresult⟩
  have hmore : Evaluates.Iterates (fun state rest => (turn state).runWith reach rest) state source
      ((⟨some (.more next), [], lastRead, rest⟩ : Outcome TokenStream (Step β α)).followedBy
        ⟨some result, [], lastRead', rest'⟩) :=
    .more hrun rfl (hless source rest hsource hrest) hiterates
  exact hmore

theorem done
    (hturn : (turn state).Gives reach before after fun step =>
      ∃ result, step = .done result ∧ Q result) :
    Cycles reach turn state before after Q := by
  intro source hsource
  obtain ⟨_, lastRead, rest, hrun, hrest, result, rfl, hresult⟩ := hturn source hsource
  have hlast : Evaluates.Iterates (fun state rest => (turn state).runWith reach rest) state source
      ((⟨some (.done result), [], lastRead, rest⟩ : Outcome TokenStream (Step β α)).withResult?
        (some result)) := .last hrun rfl
  exact ⟨result, lastRead, rest, hlast, hrest, hresult⟩

theorem gives (h : Cycles reach turn state before after Q) :
    (Parser.loop state turn).Gives reach before after Q := by
  intro source hsource
  obtain ⟨result, lastRead, rest, hiterates, hrest, hresult⟩ := h source hsource
  exact ⟨result, lastRead, rest, hiterates.runWith_eq, hrest, hresult⟩

end Cycles

/-- Collecting, after what was collected in reverse, reads from the first symbols to the
others without a word. -/
def Collects (reach : Reach TokenStream) (turn : Parser (Turn α)) (collected : List α)
    (before after : Ahead) (Q : List α → Prop) : Prop :=
  Cycles reach (fun collected => do
    let taken ← turn
    let collected := taken.result?.toList ++ collected
    return if taken.again then .more collected else .done collected.reverse) collected
    before after Q

namespace Collects

variable {turn : Parser (Turn α)} {collected : List α} {Q : List α → Prop}

theorem step {P : Option α → Prop}
    (hturn : turn.Gives reach before middle fun taken =>
      taken.again = true ∧ P taken.result?)
    (hless : ∀ source rest, before source → middle rest →
      rest.pending.length < source.pending.length)
    (hnext : ∀ result?, P result? →
      Collects reach turn (result?.toList ++ collected) middle after Q) :
    Collects reach turn collected before after Q := by
  refine Cycles.step (P := fun next => ∃ result?, P result? ∧ next = result?.toList ++ collected)
    (hturn.bind fun taken htaken => .pure ?_) hless fun next hstate => ?_
  · obtain ⟨hagain, hresult⟩ := htaken
    exact ⟨_, by simp [hagain], _, hresult, rfl⟩
  · obtain ⟨result?, hresult, rfl⟩ := hstate
    exact hnext result? hresult

theorem mono {P : List α → Prop} (h : Collects reach turn collected before after P)
    (himp : ∀ results, P results → Q results) : Collects reach turn collected before after Q := by
  intro source hsource
  obtain ⟨results, lastRead, rest, hiterates, hrest, hresults⟩ := h source hsource
  exact ⟨results, lastRead, rest, hiterates, hrest, himp results hresults⟩

theorem last
    (hturn : turn.Gives reach before after fun taken =>
      taken.again = false ∧ Q (taken.result?.toList ++ collected).reverse) :
    Collects reach turn collected before after Q := by
  refine Cycles.done (hturn.bind fun taken htaken => .pure ?_)
  obtain ⟨hagain, hresult⟩ := htaken
  exact ⟨_, by simp [hagain], hresult⟩

theorem gives (h : Collects reach turn [] before after Q) :
    (Parser.collect turn).Gives reach before after Q :=
  Cycles.gives h

end Collects

/-! ## Failures and complaints -/

theorem Gives.bind_fails {first : Parser α} {next : α → Parser β} {P : α → Prop}
    (hfirst : first.Gives reach before middle P)
    (hnext : ∀ result, P result → (next result).Fails reach middle) :
    (first >>= next).Fails reach before := by
  intro source hsource
  obtain ⟨result, lastRead, rest, hrun, hrest, hresult⟩ := hfirst source hsource
  rw [Meets.runWith_bind, hrun]
  exact hnext result hresult rest hrest

namespace Fails

theorem bind {first : Parser α} {next : α → Parser β} (h : first.Fails reach before) :
    (first >>= next).Fails reach before := by
  intro source hsource
  rw [Meets.runWith_bind, Outcome.andThen, h source hsource]
  rfl

theorem spanned {inner : Parser α} {make : α → Span → β} (h : inner.Fails reach before) :
    (Parser.spanned make inner).Fails reach before := by
  refine bind fun source hsource => ?_
  rw [runWith, Outcome.spannedFrom, h source hsource]
  rfl

end Fails

/-- What was complained about first stays reported. -/
theorem Complains.bind {first : Parser α} {next : α → Parser β}
    (h : first.Complains reach before) : (first >>= next).Complains reach before := by
  intro source hsource
  rw [Meets.runWith_bind, Outcome.andThen]
  split
  · simp [Outcome.followedBy, h source hsource]
  · exact h source hsource

theorem Gives.bind_complains {first : Parser α} {next : α → Parser β} {P : α → Prop}
    (hfirst : first.Gives reach before middle P)
    (hnext : ∀ result, P result → (next result).Complains reach middle) :
    (first >>= next).Complains reach before := by
  intro source hsource
  obtain ⟨result, lastRead, rest, hrun, hrest, hresult⟩ := hfirst source hsource
  rw [Meets.runWith_bind, hrun]
  simpa [Outcome.andThen, Outcome.followedBy] using hnext result hresult rest hrest

namespace Complains

variable {inner : Parser α}

theorem refuse {cause : Kind → Cause} : (Parser.refuse cause : Parser α).Complains reach before :=
  fun source _ => by simp [Parser.refuse, Parser.peek, Meets.runWith_bind, runWith, Outcome.andThen,
    Outcome.ofResult, Outcome.followedBy, Outcome.failure]

theorem settle (h : inner.Complains reach before) :
    (Parser.settle inner).Complains reach before :=
  fun source hsource => h source hsource

theorem optional (h : inner.Complains reach before) :
    (Parser.optional inner).Complains reach before :=
  h.settle.bind

theorem withSpan {start? : Option Pos} (h : inner.Complains reach before) :
    (Parser.withSpan start? inner).Complains reach before :=
  fun source hsource => h source hsource

theorem spanned {make : α → Span → β} (h : inner.Complains reach before) :
    (Parser.spanned make inner).Complains reach before :=
  h.withSpan.bind

/-- A loop whose first turn complains does so. -/
theorem loop {turn : β → Parser (Step β α)} {state : β}
    (h : (turn state).Complains reach before) : (Parser.loop state turn).Complains reach before := by
  intro source hsource
  have hturn := h source hsource
  rw [runWith, iterate]
  simp only [Outcome.ofResult]
  split
  next next hresult =>
    intro hnone
    have hprefix := Meets.reported_prefix_iterate
      (fun state rest => (turn state).runWith reach rest) source.pending.length next
      ((⟨some (), [], none, source⟩ : Outcome TokenStream Unit).followedBy
        (((turn state).runWith reach source).withResult? (some ())))
    refine hturn (List.prefix_nil.mp ?_)
    rw [← hnone]
    exact hprefix
  all_goals simpa [Outcome.followedBy, Outcome.withResult?] using hturn

theorem collect {turn : Parser (Turn α)} (h : turn.Complains reach before) :
    (Parser.collect turn).Complains reach before :=
  loop (bind h)

end Complains

end

/-! ## Symbols -/

section

variable [Layout] {reach : Reach TokenStream} {symbol : Symbol}
  {before middle after symbols : List Symbol}

namespace Gives

/-- The next token, if it is known. -/
theorem peek : Parser.peek.Gives reach (symbol :: symbols) (symbol :: symbols)
    (Token.Stands · symbol) := by
  intro source hsource
  refine ⟨source.ahead 0, none, source, rfl, hsource, ?_⟩
  rw [TokenStream.ahead_zero]
  exact hsource.stands_peek

/-- Of the next token only the kind is known, and perhaps that it begins a line. -/
theorem peek_kind : Parser.peek.Gives reach symbols symbols fun token =>
    token.kind = kindAt symbols 0 ∧ (lineAt symbols = true → token.newlineBefore = true) := by
  intro source hsource
  refine ⟨source.ahead 0, none, source, rfl, hsource, hsource.kind_ahead 0, fun hline => ?_⟩
  rw [TokenStream.ahead_zero]
  exact hsource.newlineBefore_peek hline

theorem kindAhead (n : Nat) :
    (Parser.kindAhead n).Gives reach symbols symbols (· = kindAt symbols n) :=
  kindAhead_of fun _ hsource => hsource.kind_ahead n

theorem peekKind : Parser.peekKind.Gives reach symbols symbols (· = kindAt symbols 0) :=
  kindAhead 0

theorem nextIs (kind : Kind) :
    (Parser.nextIs kind).Gives reach symbols symbols (· = (kindAt symbols 0 == kind)) :=
  peekKind.known (.pure rfl)

theorem advance : Parser.advance.Gives reach (symbol :: symbols) symbols (Token.Stands · symbol) :=
  fun source hsource =>
    ⟨source.peek, _, source.advance, rfl, hsource.advance, hsource.stands_peek⟩

theorem skipIf_yes {kind : Kind} (h : symbol.kind = kind) :
    (Parser.skipIf kind).Gives reach (symbol :: symbols) symbols (· = true) := by
  refine peekKind.known ?_
  rw [kindAt_zero, if_pos h]
  exact advance.bind fun _ _ => .pure rfl

theorem skipIf_no {kind : Kind} (h : kindAt symbols 0 ≠ kind) :
    (Parser.skipIf kind).Gives reach symbols symbols (· = false) := by
  refine peekKind.known ?_
  rw [if_neg h]
  exact .pure rfl

theorem expect {kind : Kind} (h : symbol.kind = kind) :
    (Parser.expect kind).Gives reach (symbol :: symbols) symbols (Token.Stands · symbol) := by
  refine peekKind.known ?_
  rw [kindAt_zero, if_pos h]
  exact advance

theorem expectOrReport {kind : Kind} (h : symbol.kind = kind) :
    (Parser.expectOrReport kind).Gives reach (symbol :: symbols) symbols fun _ => True :=
  (optional (Q := fun _ => True) ((expect h).mono fun _ _ => trivial)).bind fun _ _ =>
    .pure trivial

end Gives

namespace Cycles

variable {turn : β → Parser (Step β α)} {state : β} {Q : α → Prop}

theorem more {P : β → Prop}
    (hturn : (turn state).Gives reach before middle fun step => ∃ next, step = .more next ∧ P next)
    (hless : middle.length < before.length)
    (hnext : ∀ next, P next → Cycles reach turn next middle after Q) :
    Cycles reach turn state before after Q :=
  step hturn (fun _ _ => Heads.length_lt hless) hnext

/-- A turn to a state that is known. -/
theorem next {next : β}
    (hturn : (turn state).Gives reach before middle (· = .more next))
    (hnext : Cycles reach turn next middle after Q) (hless : middle.length < before.length) :
    Cycles reach turn state before after Q := by
  refine more (P := (· = next)) (hturn.mono fun step hstep => ⟨next, hstep, rfl⟩) hless ?_
  rintro _ rfl
  exact hnext

end Cycles

theorem Collects.again {turn : Parser (Turn α)} {collected : List α} {Q : List α → Prop}
    {P : Option α → Prop}
    (hturn : turn.Gives reach before middle fun taken => taken.again = true ∧ P taken.result?)
    (hless : middle.length < before.length)
    (hnext : ∀ result?, P result? →
      Collects reach turn (result?.toList ++ collected) middle after Q) :
    Collects reach turn collected before after Q :=
  step hturn (fun _ _ => Heads.length_lt hless) hnext

theorem Complains.expect {kind : Kind} (h : kindAt before 0 ≠ kind) :
    (Parser.expect kind).Complains reach before := by
  refine Gives.peekKind.bind_complains ?_
  rintro _ rfl
  rw [if_neg h]
  exact refuse

theorem Complains.expectOrReport {kind : Kind} (h : kindAt before 0 ≠ kind) :
    (Parser.expectOrReport kind).Complains reach before :=
  (expect h).optional.bind

end

end Parser

/-! ## Lists -/

/-- The symbol if it is wanted. -/
def Symbol.onlyIf (symbol : Symbol) (wanted : Bool) : List Symbol :=
  if wanted then [symbol] else []

/-- Stretches of symbols with a mark in front of each. -/
def markEach (mark : Mark) (stretches : List (List Symbol)) : List Symbol :=
  stretches.flatMap (.mark mark :: ·)

/-- Stretches of symbols with commas between them. -/
def commas : List (List Symbol) → List Symbol
  | [] => []
  | first :: more => first ++ markEach .comma more

/-- Stretches of symbols with commas between them, and perhaps one after the last. -/
def commaList (trailing : Bool) (stretches : List (List Symbol)) : List Symbol :=
  commas stretches ++ Symbol.onlyIf (.mark .comma) (trailing && !stretches.isEmpty)

namespace Parser

variable [Layout] {reach : Reach TokenStream} {before middle after : List Symbol} {ι γ : Type}
  {write : ι → List Symbol} {value : ι → γ} {erase : α → γ}

/-- Collecting reads items one after another if each turn reads one, in front of another one
or of what follows them, and the last turn none. -/
theorem Collects.each {turn : Parser (Turn α)} (items : List ι)
    (hitem : ∀ item ∈ items, ∀ rest,
      rest = after ∨ (∃ next ∈ items, ∃ more, rest = write next ++ more) →
      turn.Gives reach (write item ++ rest) rest fun taken =>
        taken.again = true ∧ taken.result?.map erase = some (value item))
    (hne : ∀ item ∈ items, write item ≠ [])
    (hlast : turn.Gives reach after after fun taken => taken.again = false ∧ taken.result? = none)
    (collected : List α) :
    Collects reach turn collected (items.flatMap write ++ after) after fun results =>
      results.map erase = collected.reverse.map erase ++ items.map value := by
  induction items generalizing collected with
  | nil =>
      refine .last (hlast.mono fun taken htaken => ⟨htaken.1, ?_⟩)
      simp [htaken.2]
  | cons first more ih =>
      rw [List.flatMap_cons, List.append_assoc]
      have hrest : more.flatMap write ++ after = after ∨ (∃ next ∈ first :: more,
          ∃ rest, more.flatMap write ++ after = write next ++ rest) := by
        cases more with
        | nil => exact .inl rfl
        | cons next more => exact .inr ⟨next, by simp, _, by rw [List.flatMap_cons, List.append_assoc]⟩
      refine .again (P := fun result? => result?.map erase = some (value first))
        (hitem first List.mem_cons_self _ hrest) ?_ fun result? hresult => ?_
      · have hpos := List.length_pos_iff.mpr (hne first List.mem_cons_self)
        simp only [List.length_append]
        omega
      · obtain ⟨result, rfl, hvalue⟩ := Option.map_eq_some_iff.mp hresult
        have hnext := ih
          (fun item hmem rest hrest => hitem item (List.mem_cons_of_mem _ hmem) rest <|
            hrest.imp_right fun ⟨next, hnext, h⟩ => ⟨next, List.mem_cons_of_mem _ hnext, h⟩)
          (fun item hmem => hne item (List.mem_cons_of_mem _ hmem)) (result :: collected)
        exact hnext.mono fun results hresults => by simp [hresults, hvalue]

namespace Gives

theorem elementOrStop {inner : Parser α} {item : γ}
    (h : inner.Gives reach before after fun result => erase result = item) :
    (Parser.elementOrStop inner).Gives reach before after fun taken =>
      taken.again = true ∧ taken.result?.map erase = some item :=
  (optional (Q := fun result? => result?.map erase = some item)
    (h.mono fun result hresult => by simp [hresult])).bind fun result? hresult => by
      obtain ⟨result, rfl, hitem⟩ := Option.map_eq_some_iff.mp hresult
      exact .pure ⟨rfl, by simp [hitem]⟩

/-- Elements with a mark in front of each are read up to where no mark follows. -/
theorem afterEach {mark : Mark} {inner : Parser α} (items : List ι)
    (hitem : ∀ item ∈ items, ∀ rest, rest = after ∨ kindAt rest 0 = .mark mark →
      inner.Gives reach (write item ++ rest) rest fun result => erase result = value item)
    (hafter : kindAt after 0 ≠ .mark mark) :
    (Parser.afterEach mark inner).Gives reach (markEach mark (items.map write) ++ after) after
      fun results => results.map erase = items.map value := by
  have hmarks : markEach mark (items.map write) =
      items.flatMap fun item => .mark mark :: write item := by
    simp [markEach, List.flatMap_map]
  rw [hmarks]
  refine Collects.gives (Collects.each items ?_ (by simp) ?_ [])
  · rintro item hmem rest hrest
    refine (skipIf_yes rfl).known (elementOrStop (hitem item hmem rest (hrest.imp_right ?_)))
    rintro ⟨next, -, more, rfl⟩
    rfl
  · exact (skipIf_no hafter).known (.pure ⟨rfl, rfl⟩)

/-- An element is read with the comma after it, if there is one. -/
theorem commaTurn {close : Kind} {element : Parser (Turn α)} {item : γ} {goesOn : Bool}
    (hclose : kindAt before 0 ≠ close) (hend : kindAt before 0 ≠ .endOfText)
    (helement : element.Gives reach before middle fun taken =>
      taken.again = true ∧ taken.result?.map erase = some item)
    (hskip : (Parser.skipIf (.mark .comma)).Gives reach middle after (· = goesOn)) :
    (Parser.commaTurn close element).Gives reach before after fun taken =>
      taken.again = goesOn ∧ taken.result?.map erase = some item := by
  refine peekKind.known ?_
  rw [if_neg (by simp [hclose, hend])]
  refine helement.bind fun taken htaken => ?_
  rw [if_pos htaken.1]
  exact hskip.known (.pure ⟨rfl, htaken.2⟩)

/-- Elements with commas between them, and perhaps one after the last, are read up to the closing
symbol. -/
theorem commaSeparated_list {close : Symbol} {element : Parser (Turn α)} (items : List ι)
    (trailing : Bool) (hclose : close.kind ≠ .mark .comma)
    (hfirst : ∀ item ∈ items, ∃ first more, write item = first :: more ∧
      first.kind ≠ close.kind ∧ first.kind ≠ .endOfText)
    (hitem : ∀ item ∈ items, ∀ rest, kindAt rest 0 = .mark .comma ∨ kindAt rest 0 = close.kind →
      element.Gives reach (write item ++ rest) rest fun taken =>
        taken.again = true ∧ taken.result?.map erase = some (value item)) :
    (Parser.commaSeparated close.kind element).Gives reach
      (commaList trailing (items.map write) ++ close :: after) (close :: after)
      fun results => results.map erase = items.map value := by
  have hturn {item : ι} (hmem : item ∈ items) {rest next : List Symbol} {goesOn : Bool}
      (hrest : kindAt rest 0 = .mark .comma ∨ kindAt rest 0 = close.kind)
      (hskip : (Parser.skipIf (.mark .comma)).Gives reach rest next (· = goesOn)) :
      (Parser.commaTurn close.kind element).Gives reach (write item ++ rest) next fun taken =>
        taken.again = goesOn ∧ taken.result?.map erase = some (value item) := by
    obtain ⟨symbol, more, hwrite, hsymbol, hend⟩ := hfirst item hmem
    exact commaTurn (by simpa [hwrite]) (by simpa [hwrite]) (hitem item hmem rest hrest) hskip
  have hstop : (Parser.commaTurn close.kind element).Gives reach (close :: after) (close :: after)
      fun taken => taken.again = false ∧ taken.result? = none := by
    refine peekKind.known ?_
    rw [if_pos (by simp)]
    exact .pure ⟨rfl, rfl⟩
  -- Each turn but the last one reads an element and the comma after it.
  have hlist (first : ι) (more : List ι) (hmem : ∀ item ∈ first :: more, item ∈ items)
      (collected : List α) : Collects reach (Parser.commaTurn close.kind element) collected
        (write first ++ (markEach .comma (more.map write) ++
          (Symbol.onlyIf (.mark .comma) trailing ++ close :: after))) (close :: after)
        fun results => results.map erase = collected.reverse.map erase ++ (first :: more).map value := by
    induction more generalizing first collected with
    | nil =>
        have hfirst := hmem first List.mem_cons_self
        cases trailing with
        | false =>
            have hcomma : kindAt (close :: after) 0 ≠ .mark .comma := hclose
            refine .last ((hturn hfirst (.inr rfl) (skipIf_no hcomma)).mono
              fun taken htaken => ⟨htaken.1, ?_⟩)
            obtain ⟨result, hresult, hvalue⟩ := Option.map_eq_some_iff.mp htaken.2
            simp [hresult, hvalue]
        | true =>
            have hcomma : (Parser.skipIf (.mark .comma)).Gives reach
                (.mark .comma :: close :: after) (close :: after : List Symbol) (· = true) :=
              skipIf_yes rfl
            refine .again (P := fun result? => result?.map erase = some (value first))
              (hturn hfirst (.inl rfl) hcomma)
              (by simp [Symbol.onlyIf]; omega) fun result? hresult =>
              .last (hstop.mono fun taken htaken => ⟨htaken.1, ?_⟩)
            · obtain ⟨result, rfl, hvalue⟩ := Option.map_eq_some_iff.mp hresult
              simp [htaken.2, hvalue]
    | cons second more ih =>
        have hrest : markEach .comma ((second :: more).map write) ++
            (Symbol.onlyIf (.mark .comma) trailing ++ close :: after) =
            .mark .comma :: (write second ++ (markEach .comma (more.map write) ++
              (Symbol.onlyIf (.mark .comma) trailing ++ close :: after))) := by
          simp [markEach]
        rw [hrest]
        refine .again (P := fun result? => result?.map erase = some (value first))
          (hturn (hmem first List.mem_cons_self) (.inl rfl) (skipIf_yes rfl)) ?_
          fun result? hresult => ?_
        · simp only [List.length_append, List.length_cons]
          omega
        · obtain ⟨result, rfl, hvalue⟩ := Option.map_eq_some_iff.mp hresult
          have hmore := ih second (fun item h => hmem item (List.mem_cons_of_mem _ h))
            (result :: collected)
          exact hmore.mono fun results hresults => by simp [hresults, hvalue]
  cases items with
  | nil =>
      have hsymbols : commaList trailing (([] : List ι).map write) ++ close :: after =
          close :: after := by
        simp [commaList, commas, Symbol.onlyIf]
      rw [hsymbols]
      exact Collects.gives (.last (hstop.mono fun taken htaken => ⟨htaken.1, by simp [htaken.2]⟩))
  | cons first more =>
      have hitems := hlist first more (fun _ h => h) []
      have hsymbols : commaList trailing ((first :: more).map write) ++ close :: after =
          write first ++ (markEach .comma (more.map write) ++
            (Symbol.onlyIf (.mark .comma) trailing ++ close :: after)) := by
        simp [commaList, commas]
      rw [hsymbols]
      exact Collects.gives hitems

/-- Elements with commas between them are read up to the closing symbol. -/
theorem commaSeparated {close : Symbol} {element : Parser (Turn α)} (items : List ι)
    (hclose : close.kind ≠ .mark .comma)
    (hfirst : ∀ item ∈ items, ∃ first more, write item = first :: more ∧
      first.kind ≠ close.kind ∧ first.kind ≠ .endOfText)
    (hitem : ∀ item ∈ items, ∀ rest, kindAt rest 0 = .mark .comma ∨ kindAt rest 0 = close.kind →
      element.Gives reach (write item ++ rest) rest fun taken =>
        taken.again = true ∧ taken.result?.map erase = some (value item)) :
    (Parser.commaSeparated close.kind element).Gives reach
      (commas (items.map write) ++ close :: after) (close :: after)
      fun results => results.map erase = items.map value := by
  have hcommas : commas (items.map write) = commaList false (items.map write) := by
    rw [commaList, Bool.false_and, Symbol.onlyIf, if_neg Bool.false_ne_true, List.append_nil]
  rw [hcommas]
  exact commaSeparated_list items false hclose hfirst hitem

end Gives

end Parser

end DeclFile
