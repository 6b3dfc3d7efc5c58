import DeclFile.Proofs.InPlace.Framing
import DeclFile.Proofs.InPlace.Goals

/-! # What is done in place agrees with what is run

Where running a parser comes to an outcome, reading in place leaves the same result and has
the same effects: it adds the diagnostics to those there were, and afterwards the levels and
the bound are what they were before. There is one rule for each way of building parsers. That for
spans is about what reads a token: otherwise the last token that was read is an earlier one.
-/

namespace DeclFile

variable {σ α β : Type} {limit : Nat}

/-- The reader afterwards is the one before with the effects of an outcome. -/
structure Reader.Becomes (before : Reader σ limit) (outcome : Outcome σ α)
    (after : Reader σ limit) : Prop where
  file : after.file = before.file
  source : after.source = outcome.rest
  diagnostics : after.diagnostics = before.diagnostics ++ outcome.reported
  lastRead : after.lastRead = outcome.lastRead.getD before.lastRead
  consumed_le : before.consumed ≤ after.consumed
  consumed_lt : before.consumed < after.consumed ↔ outcome.lastRead.isSome
  depth : after.depth = before.depth
  inBound : after.inBound = before.inBound

/-- The action leaves the result of an outcome and has its effects. -/
def Action.ComesTo (action : Action σ limit α) (reader : Reader σ limit)
    (outcome : Outcome σ α) : Prop :=
  ∃ after, action reader = some (outcome.result?, after) ∧ reader.Becomes outcome after

namespace Reader.Becomes

variable {before middle after : Reader σ limit} {outcome : Outcome σ α}

theorem ofResult (result : β) (reader : Reader σ limit) :
    reader.Becomes (Outcome.ofResult result reader.source) reader :=
  ⟨rfl, rfl, by simp [Outcome.ofResult], rfl, Nat.le_refl _, by simp [Outcome.ofResult], rfl, rfl⟩

theorem withResult? (h : before.Becomes outcome after) (result? : Option β) :
    before.Becomes (outcome.withResult? result?) after :=
  ⟨h.file, h.source, h.diagnostics, h.lastRead, h.consumed_le, h.consumed_lt, h.depth, h.inBound⟩

theorem followedBy {second : Outcome σ β} (h : before.Becomes outcome middle)
    (h' : middle.Becomes second after) : before.Becomes (outcome.followedBy second) after where
  file := h'.file.trans h.file
  source := h'.source
  diagnostics := by simp [h'.diagnostics, h.diagnostics, Outcome.followedBy]
  lastRead := by
    rw [h'.lastRead, h.lastRead]
    cases hlast : second.lastRead <;> simp [Outcome.followedBy, hlast]
  consumed_le := Nat.le_trans h.consumed_le h'.consumed_le
  consumed_lt := by
    have hfirst := h.consumed_lt
    have hsecond := h'.consumed_lt
    have hbefore := h.consumed_le
    have hafter := h'.consumed_le
    simp only [Outcome.followedBy, Option.isSome_or, Bool.or_eq_true, ← hfirst, ← hsecond]
    omega
  depth := h'.depth.trans h.depth
  inBound := h'.inBound.trans h.inBound

/-- Without effects the reader is as it was. -/
theorem eq_of_ofResult {result : β}
    (h : before.Becomes (Outcome.ofResult result before.source) after) : after = before := by
  -- That the count is the same follows only from both bounds, since an outcome holds no count.
  have hconsumed : ¬before.consumed < after.consumed := fun hless =>
    absurd (h.consumed_lt.mp hless) (by simp [Outcome.ofResult])
  have hsame := Nat.le_antisymm (Nat.not_lt.mp hconsumed) h.consumed_le
  obtain ⟨hfile, hsource, hdiagnostics, hlast, -, -, hdepth, hinBound⟩ := h
  cases before
  cases after
  simp_all [Outcome.ofResult]

theorem frames (h : before.Becomes outcome after) : before.Frames after :=
  ⟨h.file, h.depth, h.inBound, ⟨_, h.diagnostics.symm⟩⟩

theorem isQuiet_eq (h : before.Becomes outcome after) :
    (after.diagnostics.length == before.diagnostics.length) = outcome.reported.isEmpty := by
  rw [h.diagnostics]
  cases outcome.reported <;> simp

end Reader.Becomes

namespace Action

variable {reader : Reader σ limit}

/-! ## Actions on a reader -/

namespace ComesTo

variable {action first : Action σ limit α} {outcome before : Outcome σ α}

theorem pure (result : α) (reader : Reader σ limit) :
    (Pure.pure result : Action σ limit α).ComesTo reader (.ofResult result reader.source) :=
  ⟨reader, rfl, .ofResult result reader⟩

theorem fail (reader : Reader σ limit) :
    (Action.fail : Action σ limit α).ComesTo reader (.failure reader.source) :=
  ⟨reader, rfl, (Reader.Becomes.ofResult () reader).withResult? none⟩

theorem ask (question : Reader σ limit → α) (reader : Reader σ limit) :
    (Action.ask question).ComesTo reader (.ofResult (question reader) reader.source) :=
  ⟨reader, rfl, .ofResult _ reader⟩

theorem bind {next : α → Action σ limit β} {rest : α → σ → Outcome σ β}
    (hfirst : first.ComesTo reader before)
    (hnext : ∀ result after, before.result? = some result → reader.Becomes before after →
      (next result).ComesTo after (rest result before.rest)) :
    (first >>= next).ComesTo reader (before.andThen rest) := by
  obtain ⟨middle, heq, hbecomes⟩ := hfirst
  cases hresult : before.result? with
  | none =>
      refine ⟨middle, ?_, ?_⟩
      · simp [bind_apply, andThen, heq, hresult, Outcome.andThen, Outcome.withResult?]
      · simpa only [Outcome.andThen, hresult] using hbecomes.withResult? none
  | some result =>
      obtain ⟨after, hafter, hrest⟩ := hnext result middle hresult hbecomes
      refine ⟨after, ?_, ?_⟩
      · simp [bind_apply, andThen, heq, hresult, hafter, Outcome.andThen, Outcome.followedBy]
      · simpa only [Outcome.andThen, hresult] using hbecomes.followedBy hrest

theorem caught (h : action.ComesTo reader outcome) :
    (Action.caught action).ComesTo reader (outcome.withResult? (some outcome.result?)) := by
  obtain ⟨after, heq, hbecomes⟩ := h
  exact ⟨after, by simp [Action.caught, heq, Outcome.withResult?], hbecomes.withResult? _⟩

theorem settle (h : action.ComesTo reader outcome) :
    (Action.settle action).ComesTo reader (outcome.withResult? (some outcome.settled)) := by
  obtain ⟨after, heq, hbecomes⟩ := h
  refine ⟨after, ?_, hbecomes.withResult? _⟩
  have hread := hbecomes.consumed_lt
  cases hresult : outcome.result? <;>
    simp [Action.settle, Action.caught, Action.ask, bind_apply, pure_apply, andThen, heq, hresult,
      Outcome.withResult?, Outcome.settled, hread]

theorem attempt (h : action.ComesTo reader outcome) :
    (Action.attempt action).ComesTo reader (outcome.attempted reader.source) := by
  obtain ⟨after, heq, hbecomes⟩ := h
  have happly := attempt_apply heq hbecomes.frames
  rw [hbecomes.isQuiet_eq] at happly
  have hnothing := Reader.Becomes.ofResult (none : Option α) reader
  cases hresult : outcome.result? with
  | none =>
      exact ⟨reader, by simp [happly, hresult, Outcome.attempted, Outcome.ofResult],
        by simpa [Outcome.attempted, hresult] using hnothing⟩
  | some result =>
      cases hreported : outcome.reported with
      | nil =>
          refine ⟨after, by simp [happly, hresult, hreported, Outcome.attempted,
            Outcome.withResult?], ?_⟩
          simpa [Outcome.attempted, hresult, hreported] using hbecomes.withResult? _
      | cons first more =>
          exact ⟨reader, by simp [happly, hresult, hreported, Outcome.attempted, Outcome.ofResult],
            by simpa [Outcome.attempted, hresult, hreported] using hnothing⟩

theorem leaving {h : reader.depth < limit} (hinner : action.ComesTo (reader.deeper h) outcome) :
    ∃ after, Action.leaving action (reader.deeper h) = some (outcome.result?, after) ∧
      reader.Becomes outcome after := by
  obtain ⟨below, heq, hbecomes⟩ := hinner
  -- The level is still active when it is left, since inside all levels were left.
  exact ⟨_, leaving_apply heq hbecomes.depth, { hbecomes with depth := rfl }⟩

theorem underBound {inBound : Bool}
    (h : action.ComesTo { reader with inBound } outcome) :
    (Action.underBound inBound action).ComesTo reader outcome := by
  obtain ⟨after, heq, hbecomes⟩ := h
  exact ⟨_, underBound_apply heq, { hbecomes with inBound := rfl }⟩

theorem report (diagnostic : Diagnostic) (reader : Reader σ limit) :
    (Action.report diagnostic : Action σ limit Unit).ComesTo reader
      ⟨some (), [diagnostic], none, reader.source⟩ :=
  ⟨_, rfl, by constructor <;> simp⟩

variable [TokenSource σ]

theorem advance (reader : Reader σ limit) :
    (Action.advance : Action σ limit Token).ComesTo reader (Parser.readToken reader.source) := by
  by_cases hkind : (TokenSource.peek reader.source).kind = .endOfText
  · refine ⟨{ reader with source := TokenSource.advance reader.source }, ?_, ?_⟩
    · simp [Action.advance, Action.peek, Action.ask, change, bind_apply, pure_apply, andThen,
        hkind, Parser.readToken]
    · constructor <;> simp [Parser.readToken, hkind]
  · refine ⟨{ reader with
      source := TokenSource.advance reader.source
      lastRead := (TokenSource.peek reader.source).span
      consumed := reader.consumed + 1 }, ?_, ?_⟩
    · simp [Action.advance, Action.peek, Action.ask, change, bind_apply, pure_apply, andThen,
        hkind, Parser.readToken]
    · constructor <;> simp [Parser.readToken, hkind]

theorem withSpan (start? : Option Pos) (h : action.ComesTo reader outcome)
    (hreads : ∀ result, outcome.result? = some result → outcome.lastRead.isSome = true) :
    (Action.withSpan start? action).ComesTo reader (outcome.spannedFrom reader.file
      (start?.getD (TokenSource.peek reader.source).span.start)) := by
  obtain ⟨after, heq, hbecomes⟩ := h
  refine ⟨after, ?_, hbecomes.withResult? _⟩
  cases hresult : outcome.result? with
  | none =>
      simp [Action.withSpan, Action.peek, Action.ask, bind_apply, andThen, heq, hresult,
        Outcome.spannedFrom, Outcome.withResult?]
  | some result =>
      obtain ⟨last, hlast⟩ := Option.isSome_iff_exists.mp (hreads result hresult)
      have hafter : after.lastRead = last := by rw [hbecomes.lastRead, hlast, Option.getD_some]
      simp [Action.withSpan, Action.peek, Action.ask, bind_apply, pure_apply, andThen, heq, hresult,
        hafter, hlast, hbecomes.file, Outcome.spannedFrom, Outcome.spanFrom, Outcome.withResult?]

end ComesTo

/-- Turns in place agree with turns as they are run, whatever came before them. -/
theorem repeatTurns_comesTo {turn : β → Action σ limit (Step β α)}
    {run : β → σ → Outcome σ (Step β α)}
    (hturn : ∀ state (after : Reader σ limit), after.file = reader.file →
      after.depth = reader.depth → after.inBound = reader.inBound →
      (turn state).ComesTo after (run state after.source))
    (turns : Nat) (state : β) {sofar : Outcome σ Unit} {middle : Reader σ limit}
    (hsofar : reader.Becomes sofar middle) :
    ∃ after, repeatTurns turn turns state middle =
        some ((Parser.iterate run turns state sofar).result?, after) ∧
      reader.Becomes (Parser.iterate run turns state sofar) after := by
  -- What came before is kept apart from the reader now, so that both may change with each turn.
  induction turns generalizing state sofar middle with
  | zero => exact ⟨middle, rfl, hsofar.withResult? none⟩
  | succ turns ih =>
      obtain ⟨after, heq, hbecomes⟩ := hturn state middle hsofar.file hsofar.depth hsofar.inBound
      rw [hsofar.source] at heq hbecomes
      simp only [repeatTurns, bind_apply, andThen, heq, Parser.iterate]
      rcases hresult : (run state sofar.rest).result? with _ | next | result
      · exact ⟨after, rfl, hsofar.followedBy (hbecomes.withResult? none)⟩
      · exact ih next (hsofar.followedBy (hbecomes.withResult? (some ())))
      · exact ⟨after, rfl, hsofar.followedBy (hbecomes.withResult? (some result))⟩

theorem loop_comesTo [TokenSource σ] {turn : β → Action σ limit (Step β α)}
    {run : β → σ → Outcome σ (Step β α)}
    (hturn : ∀ state (after : Reader σ limit), after.file = reader.file →
      after.depth = reader.depth → after.inBound = reader.inBound →
      (turn state).ComesTo after (run state after.source))
    (init : β) :
    (loop init turn).ComesTo reader (Parser.iterate run (TokenSource.unread reader.source + 1) init
      (.ofResult () reader.source)) :=
  repeatTurns_comesTo hturn _ init (.ofResult () reader)

end Action

/-! ## Actions and parsers -/

variable [TokenSource σ]

/-- In the file, with the given level and bound, an action does what running a parser comes to. -/
def Action.Agrees (reach : Reach σ) (depth : Nat) (inBound : Bool) (action : Action σ limit α)
    (parser : Parser α) : Prop :=
  ∀ reader : Reader σ limit, reader.file = reach.file → reader.depth = depth →
    reader.inBound = inBound → action.ComesTo reader (parser.runWith reach reader.source)

namespace Action.Agrees

variable {reach : Reach σ} {depth : Nat} {inBound : Bool}

theorem pure (result : α) :
    Agrees reach depth inBound (Pure.pure result : Action σ limit α) (Pure.pure result) :=
  fun reader _ _ _ => .pure result reader

theorem bind {first : Action σ limit α} {next : α → Action σ limit β} {parser : Parser α}
    {rest : α → Parser β} (hfirst : Agrees reach depth inBound first parser)
    (hnext : ∀ result, Agrees reach depth inBound (next result) (rest result)) :
    Agrees reach depth inBound (first >>= next) (parser >>= rest) :=
  fun reader hfile hdepth hinBound =>
    (hfirst reader hfile hdepth hinBound).bind fun result after _ hbecomes => by
      rw [← hbecomes.source]
      exact hnext result after (hbecomes.file.trans hfile) (hbecomes.depth.trans hdepth)
        (hbecomes.inBound.trans hinBound)

theorem fail : Agrees reach depth inBound (Action.fail : Action σ limit α) .fail :=
  fun reader _ _ _ => .fail reader

theorem look (n : Nat) :
    Agrees reach depth inBound
      (ask fun reader => TokenSource.ahead reader.source n : Action σ limit Token) (.look n) :=
  fun reader _ _ _ => .ask _ reader

theorem advance : Agrees reach depth inBound (Action.advance : Action σ limit Token) .advance :=
  fun reader _ _ _ => .advance reader

theorem report (diagnostic : Diagnostic) :
    Agrees reach depth inBound (Action.report diagnostic : Action σ limit Unit)
      (.report diagnostic) :=
  fun reader _ _ _ => .report diagnostic reader

section

variable {action : Action σ limit α} {parser : Parser α}
  (h : Agrees reach depth inBound action parser)

include h

theorem withSpan (start? : Option Pos)
    (hreads : ∀ source, parser.Consumes reach source fun _ => True) :
    Agrees reach depth inBound (Action.withSpan start? action) (.withSpan start? parser) := by
  intro reader hfile hdepth hinBound
  have hspanned := (h reader hfile hdepth hinBound).withSpan start? fun result hresult =>
    hreads reader.source result hresult trivial
  rw [hfile] at hspanned
  exact hspanned

theorem settle : Agrees reach depth inBound (Action.settle action) parser.settle :=
  fun reader hfile hdepth hinBound => (h reader hfile hdepth hinBound).settle

end

/-- Performing a parser agrees with running it, where it keeps to the bound and goals agree. -/
theorem perform [reach.Consuming] {call : (goal : Goal) → Action σ limit goal.Result}
    (hcall : ∀ goal : Goal, goal.Keeps inBound →
      Agrees reach depth inBound (call goal) (.nested goal))
    {parser : Parser α} (hparser : parser.Keeps inBound) :
    Agrees reach depth inBound (parser.perform call) parser := by
  -- Each reader has a source of its own, and what is kept from there on says which parts get spans.
  suffices hfrom : ∀ {α : Type} (parser : Parser α) (reader : Reader σ limit),
      reader.file = reach.file → reader.depth = depth → reader.inBound = inBound →
      parser.KeepsFrom reach inBound reader.source →
      (parser.perform call).ComesTo reader (parser.runWith reach reader.source) from
    fun reader hfile hdepth hinBound => hfrom parser reader hfile hdepth hinBound hparser.here
  clear hparser parser
  intro α parser
  induction parser with
  | pure result => exact fun reader _ _ _ _ => .pure result reader
  | bind first next ihfirst ihnext =>
      intro reader hfile hdepth hinBound ⟨hfirst, hnext⟩
      have hcomes := ihfirst reader hfile hdepth hinBound hfirst
      refine hcomes.bind fun result after hresult hafter => ?_
      have hkeeps := hnext result hresult
      rw [← hafter.source] at hkeeps ⊢
      exact ihnext result after (hafter.file.trans hfile) (hafter.depth.trans hdepth)
        (hafter.inBound.trans hinBound) hkeeps
  | fail => exact fun reader _ _ _ _ => .fail reader
  | look n => exact fun reader _ _ _ _ => .ask _ reader
  | advance => exact fun reader _ _ _ _ => .advance reader
  | report diagnostic => exact fun reader _ _ _ _ => .report diagnostic reader
  | withSpan start? inner ih =>
      intro reader hfile hdepth hinBound ⟨hinner, hreads⟩
      have hcomes := ih reader hfile hdepth hinBound hinner
      have hspanned := hcomes.withSpan start? fun result hresult => hreads result hresult trivial
      rw [hfile] at hspanned
      exact hspanned
  | attempt inner ih =>
      exact fun reader hfile hdepth hinBound h => (ih reader hfile hdepth hinBound h).attempt
  | settle inner ih =>
      exact fun reader hfile hdepth hinBound h => (ih reader hfile hdepth hinBound h).settle
  | loop init turn ih =>
      intro reader hfile hdepth hinBound hturns
      exact loop_comesTo (fun state after hafter hlevel hsame =>
        ih state after (hafter.trans hfile) (hlevel.trans hdepth) (hsame.trans hinBound)
          (hturns state after.source)) init
  | nested goal =>
      exact fun reader hfile hdepth hinBound h => hcall goal h reader hfile hdepth hinBound

end Action.Agrees

end DeclFile
