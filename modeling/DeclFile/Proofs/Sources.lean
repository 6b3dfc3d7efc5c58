import DeclFile.Proofs.Reading.File

/-! # The source does not matter

Token sources may keep their tokens in different ways, find what is ahead by stepping or by
counting, and know or not know how many tokens there are. A parser can tell none of this: if
one source is seen as another, with the same tokens wherever one looks, then reading both
comes to the same. A stream that is lent out is seen as the stream, and so is one that can
only be peeked at and read.
-/

namespace DeclFile

open TokenSource (peek advance unread ahead)

variable {σ τ α β : Type}

/-- An outcome with what is left seen in another way. -/
def Outcome.mapRest (view : σ → τ) (outcome : Outcome σ α) : Outcome τ α :=
  ⟨outcome.result?, outcome.reported, outcome.lastRead, view outcome.rest⟩

variable {view : σ → τ}

namespace Outcome

theorem andThen_mapRest {first : Outcome σ α} {next : α → σ → Outcome σ β}
    {next' : α → τ → Outcome τ β}
    (hnext : ∀ result rest, next' result (view rest) = (next result rest).mapRest view) :
    (first.mapRest view).andThen next' = (first.andThen next).mapRest view := by
  obtain ⟨result?, reported, lastRead, rest⟩ := first
  cases result? with
  | none => rfl
  | some result => simp [andThen, mapRest, followedBy, hnext]

theorem attempted_mapRest (outcome : Outcome σ α) (source : σ) :
    (outcome.mapRest view).attempted (view source) = (outcome.attempted source).mapRest view := by
  obtain ⟨_ | result, _ | ⟨first, more⟩, lastRead, rest⟩ := outcome <;> rfl

end Outcome

/-- A turn that comes to the same on both sources can be taken again and again. -/
theorem Parser.iterate_mapRest {turn : β → σ → Outcome σ (Step β α)}
    {turn' : β → τ → Outcome τ (Step β α)}
    (hturn : ∀ state rest, turn' state (view rest) = (turn state rest).mapRest view)
    (turns : Nat) (state : β) (sofar : Outcome σ Unit) :
    iterate turn' turns state (sofar.mapRest view) =
      (iterate turn turns state sofar).mapRest view := by
  induction turns generalizing state sofar with
  | zero => rfl
  | succ turns ih =>
      have htaken : turn' state (sofar.mapRest view).rest = (turn state sofar.rest).mapRest view :=
        hturn state sofar.rest
      rw [iterate, iterate, htaken]
      rcases hresult : (turn state sofar.rest).result? with _ | next | result
      · simp only [Outcome.mapRest, hresult]
        rfl
      · simp only [Outcome.mapRest, hresult]
        exact ih next (sofar.followedBy ((turn state sofar.rest).withResult? (some ())))
      · simp only [Outcome.mapRest, hresult]
        rfl

/-- Sources of one sort are seen as sources of another: the tokens are the same wherever one
looks, and reading leads to what is seen of the rest. -/
structure TokenSource.IsView [TokenSource σ] [TokenSource τ] (view : σ → τ) : Prop where
  peek_eq (source : σ) : peek (view source) = peek source
  advance_eq (source : σ) : advance (view source) = view (advance source)
  unread_eq (source : σ) : unread (view source) = unread source
  ahead_eq (source : σ) (n : Nat) : ahead (view source) n = ahead source n

variable [TokenSource σ] [TokenSource τ]

namespace TokenSource.IsView

theorem repeat_advance (hadvance : ∀ source : σ, advance (view source) = view (advance source))
    (source : σ) (n : Nat) :
    Nat.repeat advance n (view source) = view (Nat.repeat advance n source) := by
  induction n with
  | zero => rfl
  | succ n ih => rw [Nat.repeat, Nat.repeat, ih, hadvance]

/-- Between lawful sources it is enough to agree on the next token: whether what is ahead is
found by stepping there and going back or by counting, it is the same. -/
theorem of_lawful [LawfulTokenSource σ] [LawfulTokenSource τ]
    (hpeek : ∀ source : σ, peek (view source) = peek source)
    (hadvance : ∀ source : σ, advance (view source) = view (advance source))
    (hunread : ∀ source : σ, unread (view source) = unread source) : IsView view where
  peek_eq := hpeek
  advance_eq := hadvance
  unread_eq := hunread
  ahead_eq source n := by
    rw [LawfulTokenSource.ahead_eq, LawfulTokenSource.ahead_eq, repeat_advance hadvance, hpeek]

/-- A stream that is lent out is seen as the stream. -/
theorem owner : IsView (Borrowed.owner : Borrowed σ → σ) :=
  ⟨fun _ => rfl, fun _ => rfl, fun _ => rfl, fun _ _ => rfl⟩

/-- A stream that can only be peeked at and read is seen as the stream. -/
theorem stream : IsView PlainStream.stream :=
  of_lawful (fun _ => rfl) (fun _ => rfl) fun _ => rfl

end TokenSource.IsView

namespace Parser

/-- A parser comes to the same on both sources, if goals do. -/
theorem runWith_view (hview : TokenSource.IsView view)
    {reach : Reach σ} {reach' : Reach τ} (hfile : reach'.file = reach.file)
    (hgoals : ∀ goal source,
      reach'.goal goal (view source) = (reach.goal goal source).mapRest view)
    (parser : Parser α) (source : σ) :
    parser.runWith reach' (view source) = (parser.runWith reach source).mapRest view := by
  induction parser generalizing source with
  | pure result => rfl
  | bind first next ihfirst ihnext =>
      rw [runWith, runWith, ihfirst]
      exact Outcome.andThen_mapRest fun result rest => ihnext result rest
  | fail => rfl
  | look n =>
      rw [runWith, runWith, hview.ahead_eq]
      rfl
  | advance =>
      rw [runWith, runWith, readToken, readToken, hview.peek_eq, hview.advance_eq]
      rfl
  | report diagnostic => rfl
  | withSpan start? inner ih =>
      rw [runWith, runWith, ih, hview.peek_eq, hfile]
      rfl
  | attempt inner ih =>
      rw [runWith, runWith, ih]
      exact Outcome.attempted_mapRest _ source
  | settle inner ih =>
      rw [runWith, runWith, ih]
      rfl
  | loop init turn ih =>
      -- Both loops are given the same number of turns, since as many tokens are unread.
      rw [runWith, runWith, hview.unread_eq]
      exact iterate_mapRest (fun state rest => ih state rest) _ init (.ofResult () source)
  | nested goal => exact hgoals goal source

end Parser

namespace Grammar

/-- A goal comes to the same on both sources, by induction on the levels that are left. -/
theorem reach_view (hview : TokenSource.IsView view) (grammar : Grammar) (file : SourceId)
    (levels : Nat) (goal : Goal) (source : σ) :
    (grammar.reach file levels).goal goal (view source) =
      ((grammar.reach file levels).goal goal source).mapRest view := by
  induction levels generalizing goal source with
  | zero => exact Parser.runWith_view hview rfl (fun _ _ => rfl) (grammar.refusal goal) source
  | succ levels ih =>
      exact Parser.runWith_view hview (by rw [file_reach, file_reach]) ih (grammar.rule goal) source

theorem run_view (hview : TokenSource.IsView view) (grammar : Grammar) (file : SourceId)
    (levels : Nat) (parser : Parser α) (source : σ) :
    grammar.run file levels parser (view source) =
      (grammar.run file levels parser source).mapRest view :=
  Parser.runWith_view hview (by rw [file_reach, file_reach]) (grammar.reach_view hview file levels)
    parser source

end Grammar

/-! ## Whole files -/

section

variable (source : SourceId) (limits : Limits)

/-- What is lent out is read like what it is. -/
theorem parseTokens_borrowed (tokens : σ) :
    parseTokens (Borrowed.mk tokens) source limits = parseTokens tokens source limits := by
  have hview : TokenSource.IsView (Borrowed.owner : Borrowed σ → σ) := .owner
  have hrun := (grammar limits.maxDepth).run_view hview source limits.maxDepth
    (Parser.statements false .endOfText) (Borrowed.mk tokens)
  have hexcess : excessTokens? (Borrowed.mk tokens) limits = excessTokens? tokens limits := rfl
  rw [parseTokens, parseTokens, hexcess]
  cases excessTokens? tokens limits with
  | some count => rfl
  | none =>
      dsimp only at hrun ⊢
      rw [hrun]
      rfl

/-- A source that can only be peeked at and read is read like its stream, but for the number
of tokens and the directives. -/
theorem parseTokens_plain (stream : TokenStream) :
    parseTokens (PlainStream.mk stream) source limits =
      ⟨⟨source, (fileOutcome limits stream source).result?.getD [], [],
          ⟨source, .start, (fileOutcome limits stream source).rest.peek.span.stop⟩⟩,
        (fileOutcome limits stream source).reported⟩ := by
  have hrun : fileOutcome limits stream source = _ :=
    (grammar limits.maxDepth).run_view TokenSource.IsView.stream source limits.maxDepth
      (Parser.statements false .endOfText) (PlainStream.mk stream)
  rw [hrun]
  rfl

end

/-- A directive that speaks of a reference, but of none that can be read. -/
def Reference.isMalformed (directive : Token) : Bool :=
  opening.isPrefixOf directive.text.toList && (read? directive.text).isNone

theorem Reference.ofDirective_diagnostics (directive : Token) :
    (ofDirective directive).2 =
      if isMalformed directive then [Cause.malformedReference.at directive.span] else [] := by
  unfold ofDirective isMalformed
  cases read? directive.text with
  | some reference => simp
  | none =>
      by_cases hopening : opening.isPrefixOf directive.text.toList = true <;> simp [hopening]

/-- The diagnostics of directives are those of the malformed ones. -/
theorem directiveOutcomes_diagnostics (stream : TokenStream) :
    (directiveOutcomes stream).flatMap Prod.snd =
      (stream.directives.filter Reference.isMalformed).map fun directive =>
        Cause.malformedReference.at directive.span := by
  unfold directiveOutcomes
  induction stream.directives with
  | nil => rfl
  | cons directive directives ih =>
      rw [List.map_cons, List.flatMap_cons, ih, List.filter_cons, Reference.ofDirective_diagnostics]
      by_cases hmalformed : Reference.isMalformed directive = true <;> simp [hmalformed]

/-- A module that ends later than its text ends with a reference. -/
theorem moduleEnd_of_ne {textEnd : Pos} {references : List Reference}
    (h : moduleEnd textEnd references ≠ textEnd) :
    ∃ reference ∈ references, textEnd.isBefore reference.span.stop = true ∧
      moduleEnd textEnd references = reference.span.stop := by
  unfold moduleEnd at h ⊢
  cases hlast : references.getLast? with
  | none => simp [hlast] at h
  | some reference =>
      refine ⟨reference, List.mem_of_getLast? hlast, ?_⟩
      by_cases hbefore : textEnd.isBefore reference.span.stop = true
      · exact ⟨hbefore, if_pos hbefore⟩
      · simp [hlast, Pos.later, hbefore] at h

/-- A file read without its directives is the file read with them, except that it has no
references, lacks the diagnostics of the malformed ones, which come first, and ends with its
text where a reference ends after that. -/
structure Parsed.Lacks (plain whole : Parsed) (directives : List Token) : Prop where
  source : plain.module.source = whole.module.source
  statements : plain.module.statements = whole.module.statements
  references : plain.module.references = []
  diagnostics : whole.diagnostics = (directives.filter Reference.isMalformed).map
    (fun directive => Cause.malformedReference.at directive.span) ++ plain.diagnostics
  span_source : plain.module.span.source = whole.module.span.source
  span_start : plain.module.span.start = whole.module.span.start
  span_stop : whole.module.span.stop ≠ plain.module.span.stop →
    ∃ reference ∈ whole.module.references,
      plain.module.span.stop.isBefore reference.span.stop = true ∧
        whole.module.span.stop = reference.span.stop

theorem directives_ofTokens (raw : List Token) :
    (TokenStream.ofTokens raw).directives = raw.filter (·.kind == .directive) := by
  unfold TokenStream.ofTokens
  dsimp only
  split
  · split <;> rfl
  · rfl

theorem excessTokens?_of_le {stream : TokenStream} {limits : Limits}
    (h : stream.size ≤ limits.maxTokens) : excessTokens? stream limits = none := by
  have hcount : TokenSource.count? stream = some stream.size := rfl
  simp [excessTokens?, hcount, Option.filter_some, h]

/-- Reading tokens does not depend on the source that they are read from. A stream, the same
stream lent out, and one that can only be peeked at and read give the same statements and the
same diagnostics of them; only the number of tokens and the directives are lost on the last. -/
theorem parseTokens_source_independent (raw : List Token) (source : SourceId) (limits : Limits)
    (hfits : (TokenStream.ofTokens raw).size ≤ limits.maxTokens) :
    parseTokens (Borrowed.mk (TokenStream.ofTokens raw)) source limits =
      parseTokens (TokenStream.ofTokens raw) source limits ∧
    (parseTokens (PlainStream.mk (.ofTokens raw)) source limits).Lacks
      (parseTokens (TokenStream.ofTokens raw) source limits)
      (raw.filter (·.kind == .directive)) ∧
    ((∀ token ∈ raw, token.kind ≠ .directive) →
      parseTokens (PlainStream.mk (.ofTokens raw)) source limits =
        parseTokens (TokenStream.ofTokens raw) source limits) := by
  refine ⟨parseTokens_borrowed source limits _, ?_, fun hnone => ?_⟩
  all_goals rw [parseTokens_plain, parseTokens_of_fitting source (excessTokens?_of_le hfits)]
  · refine ⟨rfl, rfl, rfl, ?_, rfl, rfl, moduleEnd_of_ne⟩
    rw [← directives_ofTokens, ← directiveOutcomes_diagnostics]
  · have hdirectives : (TokenStream.ofTokens raw).directives = [] := by
      simpa [directives_ofTokens] using hnone
    simp [directiveOutcomes, hdirectives, moduleEnd]

/-- The tokens of a text with a malformed directive before its only statement and a reference
after it, cut off before the end of the text. -/
def betweenDirectives : List Token :=
  (lex "/// <reference pth=\"a\" />\ntype F = (x: A) => (B);\n/// <reference lib=\"b\" />"
    ⟨0⟩).tokens.dropLast

/-- The tokens of a statement alone, cut off inside of it. -/
def unfinishedFunction : List Token := (lex "type F = (x: A) => (B" ⟨0⟩).tokens.dropLast

theorem parseTokens_source_independent_directives :
    ((TokenStream.ofTokens betweenDirectives).size ≤ 100 ∧
      parseTokens (Borrowed.mk (TokenStream.ofTokens betweenDirectives)) ⟨0⟩ ⟨9, 100⟩ =
        parseTokens (TokenStream.ofTokens betweenDirectives) ⟨0⟩ ⟨9, 100⟩ ∧
      (parseTokens (PlainStream.mk (.ofTokens betweenDirectives)) ⟨0⟩ ⟨9, 100⟩).Lacks
        (parseTokens (TokenStream.ofTokens betweenDirectives) ⟨0⟩ ⟨9, 100⟩)
        (betweenDirectives.filter (·.kind == .directive)) ∧
      (parseTokens (PlainStream.mk (.ofTokens betweenDirectives)) ⟨0⟩ ⟨9, 100⟩).module.span.stop ≠
        (parseTokens (TokenStream.ofTokens betweenDirectives) ⟨0⟩ ⟨9, 100⟩).module.span.stop) ∧
    (TokenStream.ofTokens unfinishedFunction).size ≤ 100 ∧
    (∀ token ∈ unfinishedFunction, token.kind ≠ .directive) ∧
      parseTokens (PlainStream.mk (.ofTokens unfinishedFunction)) ⟨0⟩ ⟨9, 100⟩ =
        parseTokens (TokenStream.ofTokens unfinishedFunction) ⟨0⟩ ⟨9, 100⟩ := by
  have hfits : (TokenStream.ofTokens betweenDirectives).size ≤ 100 := by decide +kernel
  obtain ⟨hborrowed, hlacks, -⟩ :=
    parseTokens_source_independent betweenDirectives ⟨0⟩ ⟨9, 100⟩ hfits
  have hfits' : (TokenStream.ofTokens unfinishedFunction).size ≤ 100 := by decide +kernel
  have hnone : ∀ token ∈ unfinishedFunction, token.kind ≠ .directive := by decide +kernel
  have hsame := (parseTokens_source_independent unfinishedFunction ⟨0⟩ ⟨9, 100⟩ hfits').2.2 hnone
  exact ⟨⟨hfits, hborrowed, hlacks, by decide +kernel⟩, hfits', hnone, hsame⟩

end DeclFile
