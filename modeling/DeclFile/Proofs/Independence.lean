import DeclFile.Proofs.Brackets.Basic
import DeclFile.Proofs.InPlace.Speculation
import DeclFile.Proofs.Order
import DeclFile.Proofs.Sources

/-! # Statements do not influence later ones

The statements of a file are read one turn after another by the same reader. What it holds
when a turn begins was left there by the turns before: the diagnostics so far, the span of
the last token, the number of tokens read. None of it matters for what follows. From there on
the reader adds the statements and diagnostics of a file that has only the tokens still
unread.
-/

namespace DeclFile

variable {σ α β : Type}

/-! ## Reading only reads -/

namespace TokenStream

/-- The stream after `count` of its tokens are read. -/
def skip (count : Nat) (stream : TokenStream) : TokenStream :=
  { stream with pending := stream.pending.drop count }

theorem advance_eq_skip (stream : TokenStream) : stream.advance = stream.skip 1 := by
  rw [advance, skip, List.drop_one]

theorem skip_skip (stream : TokenStream) (count more : Nat) :
    (stream.skip count).skip more = stream.skip (count + more) := by
  rw [skip, skip, skip, List.drop_drop]

theorem skip_min (stream : TokenStream) (count : Nat) :
    stream.skip (min count stream.pending.length) = stream.skip count := by
  rw [skip, skip, ← List.drop_eq_drop_min]

theorem length_pending_skip_le (stream : TokenStream) (count : Nat) :
    (stream.skip count).pending.length ≤ stream.pending.length := by
  simp [skip]

theorem Ends.skip {stream : TokenStream} (h : stream.Ends) (count : Nat) :
    (stream.skip count).Ends :=
  fun token htoken => h token (List.mem_of_mem_drop htoken)

end TokenStream

namespace Parser

theorem iterate_rest {turn : β → TokenStream → Outcome TokenStream (Step β α)}
    (hturn : ∀ state source, ∃ count, (turn state source).rest = source.skip count)
    (turns : Nat) (state : β) (sofar : Outcome TokenStream Unit) :
    ∃ count, (iterate turn turns state sofar).rest = sofar.rest.skip count := by
  induction turns generalizing state sofar with
  | zero => exact ⟨0, rfl⟩
  | succ turns ih =>
      obtain ⟨count, hcount⟩ := hturn state sofar.rest
      rw [iterate]
      rcases hresult : (turn state sofar.rest).result? with _ | next | result
      · exact ⟨count, hcount⟩
      · obtain ⟨more, hmore⟩ := ih next (sofar.followedBy ((turn state sofar.rest).withResult? _))
        refine ⟨count + more, hmore.trans ?_⟩
        rw [← TokenStream.skip_skip, ← hcount]
        rfl
      · exact ⟨count, hcount⟩

theorem runWith_rest {reach : Reach TokenStream}
    (hgoals : ∀ goal source, ∃ count, (reach.goal goal source).rest = source.skip count)
    (parser : Parser α) (source : TokenStream) :
    ∃ count, (parser.runWith reach source).rest = source.skip count := by
  induction parser generalizing source with
  | pure | fail | look | report => exact ⟨0, rfl⟩
  | advance => exact ⟨1, TokenStream.advance_eq_skip source⟩
  | withSpan _ _ ih | settle _ ih => exact ih source
  | nested goal => exact hgoals goal source
  | loop init turn ih => exact iterate_rest ih _ init _
  | attempt inner ih =>
      rw [runWith]
      obtain ⟨_, -, -, heq⟩ | heq := Outcome.attempted_cases (inner.runWith reach source) source
      · rw [heq]
        exact ih source
      · rw [heq]
        exact ⟨0, rfl⟩
  | bind first next ihfirst ihnext =>
      obtain ⟨count, hcount⟩ := ihfirst source
      rw [runWith, Outcome.andThen]
      cases hresult : (first.runWith reach source).result? with
      | none => exact ⟨count, hcount⟩
      | some result =>
          obtain ⟨more, hmore⟩ := ihnext result (first.runWith reach source).rest
          refine ⟨count + more, hmore.trans ?_⟩
          rw [hcount, TokenStream.skip_skip]

end Parser

/-- Whatever is run, what is left are the tokens that were not read. -/
theorem Grammar.run_rest (grammar : Grammar) (file : SourceId) (levels : Nat) (parser : Parser α)
    (source : TokenStream) :
    ∃ count, (grammar.run file levels parser source).rest = source.skip count := by
  have hreach : ∀ goal (source : TokenStream), ∃ count,
      ((grammar.reach file levels).goal goal source).rest = source.skip count := by
    induction levels with
    | zero =>
        intro goal source
        exact Parser.runWith_rest (fun _ _ => ⟨0, rfl⟩) (grammar.refusal goal) source
    | succ levels ih =>
        intro goal source
        exact Parser.runWith_rest ih (grammar.rule goal) source
  exact Parser.runWith_rest hreach parser source

/-! ## Collecting after something -/

/-- The outcome with its result changed. -/
def Outcome.map (f : α → β) (outcome : Outcome σ α) : Outcome σ β :=
  outcome.withResult? (outcome.result?.map f)

namespace Outcome

variable {γ : Type}

theorem map_withResult? (f : α → β) (outcome : Outcome σ α) (result? : Option γ) :
    (outcome.map f).withResult? result? = outcome.withResult? result? :=
  rfl

theorem withResult?_followedBy (outcome : Outcome σ α) (result? : Option β)
    (second : Outcome σ γ) :
    (outcome.withResult? result?).followedBy second = outcome.followedBy second :=
  rfl

theorem followedBy_map (first : Outcome σ γ) (second : Outcome σ α) (f : α → β) :
    (first.followedBy second).map f = first.followedBy (second.map f) :=
  rfl

end Outcome

namespace Parser

/-- What a turn makes of what was collected before it, the latest first. -/
def Turn.step (collected : List α) (taken : Turn α) : Step (List α) (List α) :=
  let collected := taken.result?.toList ++ collected
  if taken.again then .more collected else .done collected.reverse

theorem collect_eq (turn : Parser (Turn α)) :
    collect turn = .loop [] fun collected => turn >>= fun taken => pure (taken.step collected) :=
  rfl

section

variable [TokenSource σ] {reach : Reach σ}

theorem runWith_step (turn : Parser (Turn α)) (collected : List α) (source : σ) :
    (turn >>= fun taken => pure (taken.step collected)).runWith reach source =
      (turn.runWith reach source).map (Turn.step collected) := by
  change (turn.runWith reach source).andThen _ = _
  cases hresult : (turn.runWith reach source).result? <;>
    simp [Outcome.andThen, Outcome.map, Outcome.followedBy, Outcome.withResult?, Outcome.ofResult,
      runWith, hresult]

end

/-- What was collected before a turn only stands in front of what is collected after it. -/
theorem iterate_collected (run : σ → Outcome σ (Turn α)) (earlier : List α) (turns : Nat)
    (later : List α) (sofar : Outcome σ Unit) :
    iterate (fun collected rest => (run rest).map (Turn.step collected)) turns
        (later ++ earlier) sofar =
      (iterate (fun collected rest => (run rest).map (Turn.step collected)) turns
        later sofar).map (earlier.reverse ++ ·) := by
  -- Each turn puts its result in front, so only what is collected later changes.
  induction turns generalizing later sofar with
  | zero => rfl
  | succ turns ih =>
      rw [iterate, iterate]
      rcases hresult : (run sofar.rest).result? with _ | ⟨result?, again⟩
      · simp only [Outcome.map, Outcome.withResult?, hresult, Option.map_none]
        rfl
      · cases again
        · simp [Outcome.map, Outcome.withResult?, Outcome.followedBy, hresult, Turn.step]
        · simp only [Outcome.map, Outcome.withResult?, hresult, Option.map_some, Turn.step,
            if_true, ← List.append_assoc]
          exact ih _ _

end Parser

/-- A loop takes a first turn, which reads something if the loop goes on. -/
theorem Evaluates.exists_turn {place : Place} {init : β} {turn : β → Parser (Step β α)}
    {source : TokenStream} {outcome : Outcome TokenStream α} {peak : Nat}
    (h : Evaluates place (.loop init turn) source outcome peak) :
    ∃ taken peak, Evaluates place (turn init) source taken peak ∧
      taken.reported <+: outcome.reported ∧
      ∀ next, taken.result? = some (.more next) →
        taken.rest.pending.length < source.pending.length := by
  cases h with
  | loopMore hturn _ hread =>
      exact ⟨_, _, hturn, List.prefix_append _ _, fun _ _ => hread⟩
  | loopDone hturn hresult | loopFailed hturn hresult =>
      exact ⟨_, _, hturn, List.prefix_rfl, fun _ hmore => by simp [hresult] at hmore⟩

/-! ## The turns of a file -/

/-- What one turn of reading the statements of a file comes to. -/
def turnOutcome (limits : Limits) (tokens : TokenStream) (file : SourceId) :
    Outcome TokenStream (Parser.Turn Statement) :=
  (grammar limits.maxDepth).run file limits.maxDepth (Parser.statementTurn false .endOfText) tokens

section

variable {limits : Limits} {tokens : TokenStream} {file : SourceId}

/-- Reading a file is taking turns, any number of them above the number of tokens. -/
theorem iterates_turnOutcome (limits : Limits) (file : SourceId) (hends : tokens.Ends) :
    Evaluates.Iterates (fun collected rest => (turnOutcome limits rest file).map
      (Parser.Turn.step collected)) [] tokens (fileOutcome limits tokens file) := by
  obtain ⟨⟨peak, hevaluates⟩, -⟩ := fileOutcome_spec ⟨False, file⟩ limits hends False.elim
  have hiterates := hevaluates.runWith_eq_and_iterates.2 (Parser.collect_eq _)
  simp only [Parser.runWith_step] at hiterates
  exact hiterates

/-- The first turn of a file can be followed as a part of reading all of it. -/
theorem turnOutcome_evaluates (limits : Limits) (file : SourceId) (hends : tokens.Ends) :
    (∃ peak, Evaluates (.outset limits tokens file) (Parser.statementTurn false .endOfText) tokens
      (turnOutcome limits tokens file) peak) ∧
    (turnOutcome limits tokens file).reported <+: (fileOutcome limits tokens file).reported ∧
    ∀ found?, (turnOutcome limits tokens file).result? = some ⟨found?, true⟩ →
      (turnOutcome limits tokens file).rest.pending.length < tokens.pending.length := by
  obtain ⟨⟨_, hevaluates⟩, -⟩ := fileOutcome_spec ⟨False, file⟩ limits hends False.elim
  obtain ⟨taken, _, htaken, hreported, hread⟩ := hevaluates.exists_turn
  obtain ⟨turn, peak, hturn, hnext⟩ := htaken.parts
  obtain rfl : turnOutcome limits tokens file = turn := hturn.runWith_eq
  refine ⟨⟨peak, hturn⟩, ?_⟩
  -- What follows the turn only puts its statement to those collected.
  split at hnext
  next result hresult =>
    obtain ⟨after, _, hafter, rfl⟩ := hnext
    obtain rfl := hafter.unique (.pure _ _)
    refine ⟨by simpa [Outcome.followedBy, Outcome.ofResult] using hreported, fun found? heq => ?_⟩
    obtain rfl := Option.some.inj (hresult.symm.trans heq)
    exact hread _ rfl
  next hresult =>
    subst hnext
    exact ⟨hreported, fun found? heq => by simp [hresult] at heq⟩

/-- If the first turn of a file goes on, the rest is read like a file of its own. -/
theorem fileOutcome_of_turn (hends : tokens.Ends) {found? : Option Statement}
    (hturn : (turnOutcome limits tokens file).result? = some ⟨found?, true⟩) :
    fileOutcome limits tokens file =
      (turnOutcome limits tokens file).followedBy
        ((fileOutcome limits (turnOutcome limits tokens file).rest file).map
          (found?.toList ++ ·)) := by
  obtain ⟨count, hrest⟩ := (grammar limits.maxDepth).run_rest file limits.maxDepth
    (Parser.statementTurn false .endOfText) tokens
  change (turnOutcome limits tokens file).rest = _ at hrest
  have hends' : (turnOutcome limits tokens file).rest.Ends := hrest ▸ hends.skip count
  have hlength : (turnOutcome limits tokens file).rest.pending.length ≤ tokens.pending.length :=
    hrest ▸ tokens.length_pending_skip_le count
  -- Both files are read with the same number of turns, one of them already taken.
  have hfile := iterates_turnOutcome limits file hends (tokens.pending.length + 2)
    (.ofResult () tokens) (by change tokens.pending.length < _; omega) rfl
  have hlater := iterates_turnOutcome limits file hends' (tokens.pending.length + 1)
    ((turnOutcome limits tokens file).withResult? (some ())) (Nat.lt_succ_of_le hlength) rfl
  have hstep := Parser.iterate_collected (turnOutcome limits · file) found?.toList
    (tokens.pending.length + 1) [] ((turnOutcome limits tokens file).withResult? (some ()))
  have hmore : ((turnOutcome limits tokens file).map (Parser.Turn.step [])).result? =
      some (.more ([] ++ found?.toList)) := by
    simp [Outcome.map, Outcome.withResult?, hturn, Parser.Turn.step]
  have hreverse : found?.toList.reverse = found?.toList := by cases found? <;> rfl
  rw [Outcome.ofResult_followedBy, Parser.iterate] at hfile
  simp only [show (Outcome.ofResult () tokens).rest = tokens from rfl, hmore] at hfile
  rw [← hfile, Outcome.ofResult_followedBy, Outcome.map_withResult?, hstep, hlater, hreverse,
    Outcome.followedBy_map, Outcome.withResult?_followedBy]

theorem parseTokens_statements (source : SourceId) (hfits : tokens.size ≤ limits.maxTokens) :
    (parseTokens tokens source limits).module.statements =
      (fileOutcome limits tokens source).result?.getD [] := by
  rw [parseTokens_of_fitting source (excessTokens?_of_le hfits)]

/-- If the first turn of a file goes on, its statement stands in front of those of the rest. -/
theorem statements_of_turn (hends : tokens.Ends) {found? : Option Statement}
    (hturn : (turnOutcome limits tokens file).result? = some ⟨found?, true⟩) :
    (fileOutcome limits tokens file).result?.getD [] = found?.toList ++
      (fileOutcome limits (turnOutcome limits tokens file).rest file).result?.getD [] := by
  obtain ⟨⟨_, hevaluates⟩, -⟩ := turnOutcome_evaluates limits file hends
  obtain ⟨-, -, -, -, later, hlater, -⟩ :=
    fileOutcome_spec ⟨False, file⟩ limits (hevaluates.ends hends) False.elim
  rw [fileOutcome_of_turn hends hturn]
  simp [Outcome.followedBy, Outcome.map, Outcome.withResult?, hlater]

end

/-! ## Turns in place -/

/-- With the reader, a turn of reading the statements of a file begins, and `found` are the
statements read before it. -/
inductive TurnBegins (tokens : TokenStream) (source : SourceId) (limits : Limits) :
    Reader TokenStream limits.maxDepth → (found : List Statement) → Prop
  | first : TurnBegins tokens source limits
      { Reader.outset tokens source with
        diagnostics := (directiveOutcomes tokens).flatMap Prod.snd } []
  | next {reader after : Reader TokenStream limits.maxDepth} {found : List Statement}
      {found? : Option Statement} (hbegins : TurnBegins tokens source limits reader found)
      (hturn : (Parser.statementTurn false .endOfText).inPlace reader =
        some (some ⟨found?, true⟩, after)) :
      TurnBegins tokens source limits after (found ++ found?.toList)

/-- Outside of all goals, a turn in place has the effects of a turn on the unread tokens. -/
theorem turnOutcome_inPlace {limits : Limits} {reader : Reader TokenStream limits.maxDepth}
    (hdepth : reader.depth = 0) :
    (Parser.statementTurn false .endOfText).inPlace.ComesTo reader
      (turnOutcome limits reader.source reader.file) := by
  have hcomes := Parser.inPlace_comesTo reader (Parser.statementTurn_keeps false .endOfText)
  rw [hdepth] at hcomes
  exact hcomes

namespace TurnBegins

variable {tokens : TokenStream} {source : SourceId} {limits : Limits}
  {reader : Reader TokenStream limits.maxDepth} {found : List Statement}

/-- A turn begins in the file and outside of all goals. -/
theorem outside (h : TurnBegins tokens source limits reader found) :
    reader.file = source ∧ reader.depth = 0 := by
  induction h with
  | first => exact ⟨rfl, rfl⟩
  | next _ hturn ih =>
      obtain ⟨_, heq, hbecomes⟩ := turnOutcome_inPlace ih.2
      obtain ⟨-, rfl⟩ := Prod.mk.inj (Option.some.inj (hturn.symm.trans heq))
      exact ⟨hbecomes.file.trans ih.1, hbecomes.depth.trans ih.2⟩

/-- A turn that goes on adds what the turn of the unread tokens comes to. -/
theorem becomes (h : TurnBegins tokens source limits reader found) {found? : Option Statement}
    {after : Reader TokenStream limits.maxDepth}
    (hturn : (Parser.statementTurn false .endOfText).inPlace reader =
      some (some ⟨found?, true⟩, after)) :
    (turnOutcome limits reader.source source).result? = some ⟨found?, true⟩ ∧
      reader.Becomes (turnOutcome limits reader.source source) after := by
  obtain ⟨hfile, hdepth⟩ := h.outside
  obtain ⟨_, heq, hbecomes⟩ := turnOutcome_inPlace hdepth
  rw [hfile] at heq hbecomes
  obtain ⟨hresult, rfl⟩ := Prod.mk.inj (Option.some.inj (hturn.symm.trans heq))
  exact ⟨hresult.symm, hbecomes⟩

theorem source_eq (h : TurnBegins tokens source limits reader found) :
    ∃ count, reader.source = tokens.skip count := by
  induction h with
  | first => exact ⟨0, rfl⟩
  | @next reader after _ _ hbegins hturn ih =>
      obtain ⟨count, hcount⟩ := ih
      obtain ⟨more, hmore⟩ := (grammar limits.maxDepth).run_rest source limits.maxDepth
        (Parser.statementTurn false .endOfText) reader.source
      refine ⟨count + more, (hbegins.becomes hturn).2.source.trans ?_⟩
      rw [← TokenStream.skip_skip, ← hcount]
      exact hmore

/-- What reading the file comes to is what there is when a turn begins, and after it what
reading the unread tokens comes to. -/
theorem fileOutcome_eq (h : TurnBegins tokens source limits reader found) (hends : tokens.Ends) :
    (fileOutcome limits tokens source).result? =
        (fileOutcome limits reader.source source).result?.map (found ++ ·) ∧
      (directiveOutcomes tokens).flatMap Prod.snd ++ (fileOutcome limits tokens source).reported =
        reader.diagnostics ++ (fileOutcome limits reader.source source).reported := by
  induction h with
  | first => exact ⟨by simp [Reader.outset], rfl⟩
  | @next reader after found found? hbegins hturn ih =>
      obtain ⟨count, hcount⟩ := hbegins.source_eq
      obtain ⟨hresult, hbecomes⟩ := hbegins.becomes hturn
      have hfile := fileOutcome_of_turn (hcount ▸ hends.skip count) hresult
      rw [← hbecomes.source] at hfile
      rw [ih.1, ih.2, hfile, hbecomes.diagnostics]
      constructor
      · simp [Outcome.followedBy, Outcome.map, Outcome.withResult?, Function.comp_def]
      · simp [Outcome.followedBy, Outcome.map, Outcome.withResult?]

/-- Every file begins with a turn. -/
theorem exists_first (tokens : TokenStream) (source : SourceId) (limits : Limits) :
    ∃ reader, TurnBegins tokens source limits reader [] ∧ reader.source = tokens :=
  ⟨_, .first, rfl⟩

/-- After a turn that goes on, another one begins. -/
theorem exists_next (h : TurnBegins tokens source limits reader found) {left : TokenStream}
    (hsource : reader.source = left) {found? : Option Statement}
    (hresult : (turnOutcome limits left source).result? = some ⟨found?, true⟩) :
    ∃ after, TurnBegins tokens source limits after (found ++ found?.toList) ∧
      after.source = (turnOutcome limits left source).rest ∧
      after.diagnostics = reader.diagnostics ++ (turnOutcome limits left source).reported := by
  subst hsource
  obtain ⟨hfile, hdepth⟩ := h.outside
  obtain ⟨after, heq, hbecomes⟩ := turnOutcome_inPlace hdepth
  rw [hfile] at heq hbecomes
  exact ⟨after, .next h (heq.trans (by rw [hresult])), hbecomes.source, hbecomes.diagnostics⟩

end TurnBegins

/-! ## Files that begin later -/

namespace TokenStream

theorem isTrivia_of_mem_significantOnto {pending : Bool} {raw : List Token} {token : Token}
    (h : token ∈ significantOnto [] pending raw) : token.kind.isTrivia = false := by
  induction raw generalizing pending with
  | nil => simp [significantOnto] at h
  | cons first raw ih =>
      rw [significantOnto] at h
      split at h
      next => exact ih h
      next htrivia =>
        rw [significantOnto_eq] at h
        obtain rfl | h := List.mem_cons.mp h
        · simpa using htrivia
        · exact ih h

theorem tokens_skip (stream : TokenStream) {count : Nat} (h : count ≤ stream.pending.length) :
    (stream.skip count).tokens = stream.tokens.drop count := by
  rw [tokens, tokens, List.drop_append_of_le_length h]
  rfl

/-- Significant tokens make a stream of just these tokens. -/
theorem ofTokens_tokens {stream : TokenStream}
    (h : ∀ token ∈ stream.pending, token.kind.isTrivia = false) :
    ofTokens stream.tokens =
      { stream with size := stream.pending.length + 1, directives := [] } := by
  have htokens : ∀ token ∈ stream.tokens, token.kind.isTrivia = false := by
    intro token htoken
    obtain htoken | htoken := List.mem_append.mp htoken
    · exact h token htoken
    · rw [List.mem_singleton.mp htoken, stream.last_kind]
      rfl
  have hdirectives : stream.tokens.filter (·.kind == .directive) = [] := by
    rw [List.filter_eq_nil_iff]
    intro token htoken hdirective
    have hkind := htokens token htoken
    rw [eq_of_beq hdirective] at hkind
    cases hkind
  have hlast := stream.last_kind
  simp only [ofTokens, significantOnto_of_significant htokens, hdirectives]
  simp [tokens, hlast]

variable {raw : List Token}

/-- A stream is made of significant tokens in the order of the text. -/
theorem pending_ofTokens (raw : List Token) :
    (ofTokens raw).pending <+: significantOnto [] false raw := by
  unfold ofTokens
  dsimp only
  split
  · split
    · exact List.dropLast_prefix _
    · exact List.prefix_rfl
  · exact List.nil_prefix

theorem length_pending_ofTokens_lt (raw : List Token) :
    (ofTokens raw).pending.length < (ofTokens raw).size := by
  unfold ofTokens
  dsimp only
  split
  next heq =>
    have hne := List.length_pos_of_ne_nil (List.ne_nil_of_mem (List.mem_of_getLast? heq))
    split
    · simpa using Nat.sub_one_lt_of_lt hne
    · exact Nat.lt_succ_self _
  · exact Nat.zero_lt_one

theorem ends_ofTokens (hends : ∀ token ∈ raw.dropLast, token.kind ≠ .endOfText) :
    (ofTokens raw).Ends := by
  intro token htoken hkind
  obtain rfl | ⟨init, last, rfl⟩ := raw.eq_nil_or_concat'
  · cases htoken
  · rw [List.dropLast_concat] at hends
    by_cases hlast : last.kind = .endOfText
    · obtain ⟨newline, heq⟩ := significantOnto_concat false init last (by rw [hlast]; rfl)
      simp only [ofTokens, heq, List.getLast?_concat, hlast, dite_true, List.dropLast_concat]
        at htoken
      obtain ⟨other, hother, hsame⟩ := kind_of_mem_significantOnto htoken
      exact hends other hother (hsame.trans hkind)
    · obtain ⟨other, hother, hsame⟩ :=
        kind_of_mem_significantOnto ((pending_ofTokens _).subset htoken)
      obtain hother | hother := List.mem_append.mp hother
      · exact hends other hother (hsame.trans hkind)
      · rw [List.mem_singleton.mp hother] at hsame
        exact hlast (hsame.trans hkind)

end TokenStream

/-- How many tokens the whole text has and which directives do not matter for statements. -/
theorem fileOutcome_recounted (limits : Limits) (stream : TokenStream) (file : SourceId)
    (size : Nat) (directives : List Token) :
    fileOutcome limits { stream with size, directives } file =
      (fileOutcome limits stream file).mapRest fun rest => { rest with size, directives } := by
  have hview : TokenSource.IsView fun rest : TokenStream => { rest with size, directives } :=
    .of_lawful (fun _ => rfl) (fun _ => rfl) fun _ => rfl
  exact (grammar limits.maxDepth).run_view hview file limits.maxDepth
    (Parser.statements false .endOfText) stream

/-- Tokens without directives give what their statements come to. -/
theorem parseTokens_significant {stream : TokenStream} (source : SourceId) {limits : Limits}
    (hsignificant : ∀ token ∈ stream.pending, token.kind.isTrivia = false)
    (hfits : stream.pending.length < limits.maxTokens) :
    (parseTokens (TokenStream.ofTokens stream.tokens) source limits).module.statements =
        (fileOutcome limits stream source).result?.getD [] ∧
      (parseTokens (TokenStream.ofTokens stream.tokens) source limits).diagnostics =
        (fileOutcome limits stream source).reported := by
  have hfitting : excessTokens? (TokenStream.ofTokens stream.tokens) limits = none := by
    apply excessTokens?_of_le
    rw [TokenStream.ofTokens_tokens hsignificant]
    exact hfits
  rw [parseTokens_of_fitting source hfitting, TokenStream.ofTokens_tokens hsignificant,
    fileOutcome_recounted]
  exact ⟨rfl, rfl⟩

/-- The significant tokens from some place on give what is left to read there. -/
theorem parseTokens_drop (raw : List Token) (source : SourceId) {limits : Limits} {count : Nat}
    (hcount : count ≤ (TokenStream.ofTokens raw).pending.length)
    (hfits : (TokenStream.ofTokens raw).size ≤ limits.maxTokens) :
    (parseTokens (TokenStream.ofTokens ((TokenStream.ofTokens raw).tokens.drop count)) source
        limits).module.statements =
        (fileOutcome limits ((TokenStream.ofTokens raw).skip count) source).result?.getD [] ∧
      (parseTokens (TokenStream.ofTokens ((TokenStream.ofTokens raw).tokens.drop count)) source
        limits).diagnostics =
        (fileOutcome limits ((TokenStream.ofTokens raw).skip count) source).reported := by
  rw [← TokenStream.tokens_skip _ hcount]
  apply parseTokens_significant
  · intro token htoken
    exact TokenStream.isTrivia_of_mem_significantOnto
      ((TokenStream.pending_ofTokens raw).subset (List.mem_of_mem_drop htoken))
  · have hskip := (TokenStream.ofTokens raw).length_pending_skip_le count
    have hsize := TokenStream.length_pending_ofTokens_lt raw
    omega

/-- The file is what was found and reported up to some place, and another file after it. -/
structure Parsed.SplitsInto (whole : Parsed) (found : List Statement)
    (reported : List Diagnostic) (later : Parsed) : Prop where
  statements : whole.module.statements = found ++ later.module.statements
  diagnostics : whole.diagnostics = reported ++ later.diagnostics

/-- Statements do not influence the ones after them. Whenever a turn of reading a file
begins, what is added from there on to the statements and diagnostics that there are is what
the unread tokens give by themselves. -/
theorem statements_independent (raw : List Token) (source : SourceId) (limits : Limits)
    (hends : ∀ token ∈ raw.dropLast, token.kind ≠ .endOfText)
    (hfits : (TokenStream.ofTokens raw).size ≤ limits.maxTokens)
    {reader : Reader TokenStream limits.maxDepth} {found : List Statement}
    (hbegins : TurnBegins (.ofTokens raw) source limits reader found) :
    ∃ count ≤ (TokenStream.ofTokens raw).pending.length,
      reader.source = (TokenStream.ofTokens raw).skip count ∧
      (parseTokens (TokenStream.ofTokens raw) source limits).SplitsInto found reader.diagnostics
        (parseTokens (TokenStream.ofTokens ((TokenStream.ofTokens raw).tokens.drop count)) source
          limits) := by
  obtain ⟨count, hsource⟩ := hbegins.source_eq
  -- Beyond the last token nothing changes, so the place may be taken to lie within the tokens.
  rw [← TokenStream.skip_min] at hsource
  have hcount := Nat.min_le_right count (TokenStream.ofTokens raw).pending.length
  refine ⟨_, hcount, hsource, ?_⟩
  have hends' := TokenStream.ends_ofTokens hends
  obtain ⟨hresult, hreported⟩ := hbegins.fileOutcome_eq hends'
  obtain ⟨-, -, -, -, later, hlater, -⟩ :=
    fileOutcome_spec ⟨False, source⟩ limits (hsource ▸ hends'.skip _) False.elim
  obtain ⟨hstatements, hdiagnostics⟩ := parseTokens_drop raw source hcount hfits
  rw [← hsource] at hstatements hdiagnostics
  rw [parseTokens_of_fitting source (excessTokens?_of_le hfits)]
  constructor
  · rw [hstatements]
    simp [hresult, hlater]
  · rw [hdiagnostics]
    exact hreported

/-- The tokens of a text whose first and last statements are broken. -/
def brokenAround : List Token :=
  (lex "type A = ;\ndeclare function f(a: (b: C) => D): E;\ntype G = <;" ⟨0⟩).tokens

theorem statements_independent_broken :
    ∃ (reader : Reader TokenStream 9) (found : List Statement),
      TurnBegins (.ofTokens brokenAround) ⟨0⟩ ⟨9, 100⟩ reader found ∧
      reader.diagnostics ≠ [] ∧ found ≠ [] ∧
      (∀ token ∈ brokenAround.dropLast, token.kind ≠ .endOfText) ∧
      (TokenStream.ofTokens brokenAround).size ≤ 100 ∧
      ∃ count ≤ (TokenStream.ofTokens brokenAround).pending.length,
        reader.source = (TokenStream.ofTokens brokenAround).skip count ∧
        (parseTokens (TokenStream.ofTokens brokenAround) ⟨0⟩ ⟨9, 100⟩).SplitsInto found
          reader.diagnostics (parseTokens (TokenStream.ofTokens
            ((TokenStream.ofTokens brokenAround).tokens.drop count)) ⟨0⟩ ⟨9, 100⟩) := by
  let first := turnOutcome ⟨9, 100⟩ (.ofTokens brokenAround) ⟨0⟩
  have hfirst : first.result?.map (fun taken => (taken.result?.isSome, taken.again)) =
      some (false, true) ∧ first.reported.isEmpty = false := by decide +kernel
  have hsecond : (turnOutcome ⟨9, 100⟩ first.rest ⟨0⟩).result?.map
      (fun taken => (taken.result?.isSome, taken.again)) = some (true, true) := by decide +kernel
  obtain ⟨⟨found?, _⟩, hfound, hagain⟩ := Option.map_eq_some_iff.mp hfirst.1
  obtain ⟨⟨_ | statement, _⟩, hstatement, hagain'⟩ := Option.map_eq_some_iff.mp hsecond
  · cases hagain'
  obtain ⟨-, rfl⟩ := Prod.mk.inj hagain
  obtain ⟨-, rfl⟩ := Prod.mk.inj hagain'
  obtain ⟨outset, houtset, htokens⟩ :=
    TurnBegins.exists_first (.ofTokens brokenAround) ⟨0⟩ ⟨9, 100⟩
  obtain ⟨middle, hmiddle, hsource, hdiagnostics⟩ := houtset.exists_next htokens hfound
  obtain ⟨reader, hreader, -, hlater⟩ := hmiddle.exists_next hsource hstatement
  have hends : ∀ token ∈ brokenAround.dropLast, token.kind ≠ .endOfText := by decide +kernel
  have hfits : (TokenStream.ofTokens brokenAround).size ≤ 100 := by decide +kernel
  refine ⟨reader, _, hreader, ?_, by simp, hends, hfits,
    statements_independent brokenAround ⟨0⟩ ⟨9, 100⟩ hends hfits hreader⟩
  have hreported : first.reported ≠ [] := List.isEmpty_eq_false_iff.mp hfirst.2
  simp only [hlater, hdiagnostics, ne_eq, List.append_eq_nil_iff, not_and]
  exact fun hempty => absurd hempty.2 hreported

end DeclFile
