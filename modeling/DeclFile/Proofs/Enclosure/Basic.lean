import DeclFile.Proofs.Brackets.Name
import DeclFile.Proofs.Reading.File

/-! # Stretches of tokens that reading does not leave

A broken construct is given up somewhere in its middle. What is left then is up to whoever goes
on, so it matters where that can be: between braces that are still to be closed, or in front of a
word that begins the next statement. An enclosure is such a stretch of tokens with all that is
needed to show that a parser that begins in it ends in it, whether it has a result or fails. The
rules here carry what holds of the unread tokens forward.
-/

namespace DeclFile

open DeclFile.Parser (opensGroup closesGroup)

/-! ## What was read -/

theorem Outcome.lastRead_followedBy {α β : Type} {first : Outcome TokenStream α}
    {second : Outcome TokenStream β} {read more : List Token}
    (hfirst : first.lastRead = read.getLast?.map Token.span)
    (hsecond : second.lastRead = more.getLast?.map Token.span) :
    (first.followedBy second).lastRead = (read ++ more).getLast?.map Token.span := by
  simp only [followedBy, hfirst, hsecond, List.getLast?_append]
  cases more.getLast? <;> simp

/-- What was read is what is no longer left, and its last token is the last one read. -/
theorem Evaluates.reads {place : Place} {α : Type} {parser : Parser α} {source : TokenStream}
    {outcome : Outcome TokenStream α} {peak : Nat}
    (h : Evaluates place parser source outcome peak) (hends : source.Ends) :
    ∃ read, source.pending = read ++ outcome.rest.pending ∧
      outcome.lastRead = read.getLast?.map Token.span := by
  induction h with
  | bind hfirst _ _ ih₁ ih₂ | loopMore hfirst _ _ _ ih₁ ih₂ =>
      obtain ⟨read, hread, hlast⟩ := ih₁ hends
      obtain ⟨more, hmore, hlast'⟩ := ih₂ (hfirst.ends hends)
      refine ⟨read ++ more, ?_, Outcome.lastRead_followedBy hlast hlast'⟩
      rw [hread, hmore, List.append_assoc]
      rfl
  | advance source =>
      by_cases hkind : source.peek.kind = .endOfText
      · have hpending := TokenStream.pending_eq_nil_of_peek hends hkind
        refine ⟨[], ?_, if_pos hkind⟩
        simp [Parser.readToken, TokenSource.advance, TokenStream.advance, hpending]
      · exact ⟨[source.peek], source.pending_eq_of_peek hkind, if_neg hkind⟩
  | @attempt _ _ _ source outcome _ _ ih =>
      obtain ⟨_, -, -, heq⟩ | heq := outcome.attempted_cases source
      · rw [heq]
        exact ih hends
      · rw [heq]
        exact ⟨[], rfl, rfl⟩
  | bindFailed _ _ ih | withSpan _ ih | settle _ ih | loopDone _ _ ih | loopFailed _ _ ih
  | nested _ _ _ ih | refused _ _ _ ih => exact ih hends
  | _ => exact ⟨[], rfl, rfl⟩

/-- If no token was read, all of them are left. -/
theorem Evaluates.pending_of_lastRead {place : Place} {α : Type} {parser : Parser α}
    {source : TokenStream} {outcome : Outcome TokenStream α} {peak : Nat}
    (h : Evaluates place parser source outcome peak) (hends : source.Ends)
    (hlast : outcome.lastRead.isSome = false) : outcome.rest.pending = source.pending := by
  obtain ⟨read, hread, heq⟩ := h.reads hends
  obtain rfl : read = [] := by
    rw [heq] at hlast
    cases read with
    | nil => rfl
    | cons token read => simp [List.getLast?_cons] at hlast
  exact hread.symm

namespace Parser

variable {α β : Type}

/-- A loop that is done in its first turn. -/
theorem Observes.loop {source : TokenStream} {init : β} {turn : β → Parser (Step β α)}
    {result : α} (h : Observes (turn init) source (.done result)) :
    Observes (.loop init turn) source result :=
  fun place => .loopDone (h place) rfl

/-! ## Carrying forward -/

/-- Wherever the parser comes to an end from where `P` holds of the unread tokens, and all that it
reports is permitted, then `Q` holds of its result and what is left, or `F` where it fails. -/
def Leads (permits : Diagnostic → Prop) (place : Place) (source : TokenStream) (parser : Parser α)
    (P F : List Token → Prop) (Q : α → List Token → Prop) : Prop :=
  source.Ends → P source.pending → ∀ {outcome : Outcome TokenStream α} {peak : Nat},
    Evaluates place parser source outcome peak →
    (∀ diagnostic ∈ outcome.reported, permits diagnostic) →
    match outcome.result? with
    | some result => Q result outcome.rest.pending
    | none => F outcome.rest.pending

namespace Leads

variable {permits : Diagnostic → Prop} {place : Place} {source : TokenStream}
  {P P' F G M : List Token → Prop} {Q Q' : α → List Token → Prop} {R : β → List Token → Prop}

theorem mono {parser : Parser α} (h : parser.Leads permits place source P F Q)
    (hP : P' source.pending → P source.pending) (hF : ∀ tokens, F tokens → G tokens)
    (hQ : ∀ result tokens, Q result tokens → Q' result tokens) :
    parser.Leads permits place source P' G Q' := by
  intro hends hbefore outcome peak hevaluates hpermits
  have h := h hends (hP hbefore) hevaluates hpermits
  split at h
  next => exact hQ _ _ h
  next => exact hF _ h

theorem pre {parser : Parser α} (h : parser.Leads permits place source P F Q)
    (hP : P' source.pending → P source.pending) : parser.Leads permits place source P' F Q :=
  h.mono hP (fun _ => id) fun _ _ => id

theorem post {parser : Parser α} (h : parser.Leads permits place source P F Q)
    (hQ : ∀ result tokens, Q result tokens → Q' result tokens) :
    parser.Leads permits place source P F Q' :=
  h.mono id (fun _ => id) hQ

/-- What holds before may be used. -/
theorem of_before {parser : Parser α}
    (h : source.Ends → P source.pending → parser.Leads permits place source P F Q) :
    parser.Leads permits place source P F Q :=
  fun hends hbefore => h hends hbefore hends hbefore

/-- Nothing needs to be shown where reading cannot be. -/
theorem never {parser : Parser α} (h : ¬P source.pending) :
    parser.Leads permits place source P F Q :=
  fun _ hbefore => absurd hbefore h

theorem pure {result : α} (h : P source.pending → Q result source.pending) :
    (Pure.pure result : Parser α).Leads permits place source P F Q := by
  intro _ hbefore outcome peak hevaluates _
  cases hevaluates
  exact h hbefore

/-- Where nothing is done everything is as it was. -/
theorem idle {result : α} :
    (Pure.pure result : Parser α).Leads permits place source P F fun _ => P :=
  pure id

theorem fail (h : P source.pending → F source.pending) :
    (Parser.fail : Parser α).Leads permits place source P F Q := by
  intro _ hbefore outcome peak hevaluates _
  cases hevaluates
  exact h hbefore

/-- What is done after a part depends on how that ended. -/
theorem bind_of_evaluates {first : Parser α} {next : α → Parser β}
    (h : source.Ends → P source.pending → ∀ {before : Outcome TokenStream α} {peak : Nat},
      Evaluates place first source before peak →
      (∀ diagnostic ∈ before.reported, permits diagnostic) →
      match before.result? with
      | some result => ∃ M : List Token → Prop, M before.rest.pending ∧
          (next result).Leads permits place before.rest M F R
      | none => F before.rest.pending) :
    (first >>= next).Leads permits place source P F R := by
  intro hends hP outcome peak hevaluates hpermits
  obtain ⟨before, _, hbefore, hafter⟩ := hevaluates.parts
  split at hafter
  next result hresult =>
    obtain ⟨after, _, hafter, rfl⟩ := hafter
    obtain ⟨hpermits₁, hpermits₂⟩ := List.forall_mem_append.mp hpermits
    have hfirst := h hends hP hbefore hpermits₁
    simp only [hresult] at hfirst
    obtain ⟨M, hM, hnext⟩ := hfirst
    have hrest := hnext (hbefore.ends hends) hM hafter hpermits₂
    simp only [Outcome.followedBy]
    exact hrest
  next hresult =>
    subst hafter
    have hfirst := h hends hP hbefore hpermits
    simpa only [hresult, Outcome.withResult?] using hfirst

theorem bind {first : Parser α} {next : α → Parser β}
    (hfirst : first.Leads permits place source P F Q)
    (hnext : ∀ result rest, (next result).Leads permits place rest (Q result) F R) :
    (first >>= next).Leads permits place source P F R :=
  bind_of_evaluates fun hends hP _ _ hevaluates hpermits => by
    have hfirst := hfirst hends hP hevaluates hpermits
    split at hfirst
    next result _ => exact ⟨Q result, hfirst, hnext result _⟩
    next => exact hfirst

theorem map {parser : Parser α} {f : α → β}
    (h : parser.Leads permits place source P F fun result => R (f result)) :
    (f <$> parser).Leads permits place source P F R :=
  h.bind fun _ _ => pure id

theorem fail_bind {next : α → Parser β} (h : P source.pending → F source.pending) :
    (Parser.fail >>= next).Leads permits place source P F R :=
  bind (Q := fun _ _ => False) (fail h) fun _ _ => never id

/-- Something may be read before the rest. -/
theorem when {condition : Prop} [Decidable condition] {first : Parser α} {rest : Parser β}
    (hfirst : condition → first.Leads permits place source P F fun _ => M)
    (hskip : ¬condition → P source.pending → M source.pending)
    (hrest : ∀ source, rest.Leads permits place source M F R) :
    (if condition then first >>= fun _ => rest else rest).Leads permits place source P F R := by
  split
  next h => exact (hfirst h).bind fun _ => hrest
  next h => exact (hrest source).pre (hskip h)

/-- One thing or another may be read before the rest. -/
theorem either {condition : Prop} [Decidable condition] {first second : Parser α}
    {rest : α → Parser β} (hfirst : condition → first.Leads permits place source P F Q)
    (hsecond : ¬condition → second.Leads permits place source P F Q)
    (hrest : ∀ result source, (rest result).Leads permits place source (Q result) F R) :
    (if condition then first >>= fun result => rest result
      else second >>= fun result => rest result).Leads permits place source P F R := by
  split
  next h => exact (hfirst h).bind hrest
  next h => exact (hsecond h).bind hrest

/-- What is found out first may be put in its place. -/
theorem observe {first : Parser α} {next : α → Parser β} {result : α}
    (hfirst : Observes first source result)
    (hnext : (next result).Leads permits place source P F R) :
    (first >>= next).Leads permits place source P F R :=
  bind_of_evaluates fun _ hP _ _ hevaluates _ => by
    obtain rfl := hevaluates.unique (hfirst place)
    exact ⟨P, hP, hnext⟩

/-! ### Reading and reporting -/

theorem report_bind {diagnostic : Diagnostic} {next : Unit → Parser β}
    (hnext : permits diagnostic → (next ()).Leads permits place source P F R) :
    (Parser.report diagnostic >>= next).Leads permits place source P F R :=
  bind_of_evaluates fun _ hP _ _ hevaluates hpermits => by
    obtain rfl := hevaluates.unique (.report diagnostic source)
    exact ⟨P, hP, hnext (hpermits diagnostic (List.mem_singleton_self _))⟩

theorem reportHere_bind {cause : Cause} {next : Unit → Parser β}
    (hnext : permits (cause.at source.peek.span) →
      (next ()).Leads permits place source P F R) :
    (Parser.reportHere cause >>= next).Leads permits place source P F R :=
  bind_of_evaluates fun _ hP _ _ hevaluates hpermits => by
    have hpeek : Evaluates place Parser.peek source _ _ := Observes.peek place
    have hreport : Evaluates place (Parser.reportHere cause) source _ _ :=
      hpeek.bind rfl (.report _ source)
    obtain rfl := hevaluates.unique hreport
    exact ⟨P, hP, hnext (hpermits _ (List.mem_singleton_self _))⟩

theorem refuse {cause : Kind → Cause}
    (h : permits ((cause source.peek.kind).at source.peek.span) → P source.pending →
      F source.pending) :
    (Parser.refuse cause : Parser α).Leads permits place source P F Q :=
  observe .peek <| report_bind fun hpermits => fail (h hpermits)

/-- After a token is read, the next one is the one that was ahead. -/
theorem advance_bind {next : Token → Parser β}
    (h : P source.pending → M source.advance.pending)
    (hnext : (next source.peek).Leads permits place source.advance M F R) :
    (Parser.advance >>= next).Leads permits place source P F R :=
  bind_of_evaluates fun _ hP _ _ hevaluates _ => by
    obtain rfl := hevaluates.unique (.advance source)
    exact ⟨M, h hP, hnext⟩

theorem advance {Q : Token → List Token → Prop}
    (h : P source.pending → Q source.peek source.advance.pending) :
    Parser.advance.Leads permits place source P F Q := by
  intro _ hP outcome peak hevaluates _
  obtain rfl := hevaluates.unique (.advance source)
  exact h hP

/-! ### Undoing and going on -/

theorem withSpan {start? : Option Pos} {parser : Parser α}
    (h : parser.Leads permits place source P F Q) :
    (Parser.withSpan start? parser).Leads permits place source P F fun found => Q found.1 := by
  intro hends hP whole peak hevaluates hpermits
  obtain ⟨outcome, _, hinner, rfl⟩ := hevaluates.parts
  have hinner' := h hends hP hinner hpermits
  cases hresult : outcome.result? <;>
    simpa [Outcome.spannedFrom, Outcome.withResult?, hresult] using hinner'

theorem spanned {parser : Parser α} {make : α → Span → β}
    (h : parser.Leads permits place source P F fun _ => M) :
    (Parser.spanned make parser).Leads permits place source P F fun _ => M :=
  h.withSpan.bind fun _ _ => idle

/-- An attempt that succeeds reported nothing, and one that fails is undone. -/
theorem attempt_bind {inner : Parser α} {next : Option α → Parser β}
    (hinner : inner.Leads permits place source P G Q)
    (hsome : ∀ result rest, (next (some result)).Leads permits place rest (Q result) F R)
    (hnone : (next none).Leads permits place source P F R) :
    (inner.attempt >>= next).Leads permits place source P F R :=
  bind_of_evaluates fun hends hP _ _ hwhole _ => by
    obtain ⟨outcome, _, hevaluates, rfl⟩ := hwhole.parts
    obtain ⟨found, hfound, hreported, heq⟩ | heq := outcome.attempted_cases source
    · have hinner := hinner hends hP hevaluates (by simp [hreported])
      rw [hfound] at hinner
      rw [heq]
      exact ⟨Q found, hinner, hsome found _⟩
    · rw [heq]
      exact ⟨P, hP, hnone⟩

theorem attempt {inner : Parser α} {Q : Option α → List Token → Prop}
    (hinner : inner.Leads permits place source P G fun result => Q (some result))
    (hnone : P source.pending → Q none source.pending) :
    inner.attempt.Leads permits place source P F Q := by
  intro hends hP whole peak hwhole _
  obtain ⟨outcome, _, hevaluates, rfl⟩ := hwhole.parts
  obtain ⟨found, hfound, hreported, heq⟩ | heq := outcome.attempted_cases source
  · have hinner := hinner hends hP hevaluates (by simp [hreported])
    rw [hfound] at hinner
    rw [heq]
    exact hinner
  · rw [heq]
    exact hnone hP

/-- A part that failed without progress left everything as it was. -/
theorem settle_bind {inner : Parser α} {next : Settled α → Parser β}
    (hinner : inner.Leads permits place source P G Q)
    (hdone : ∀ result rest, (next (.done result)).Leads permits place rest (Q result) F R)
    (hfailed : ∀ progress rest, (next (.failed progress)).Leads permits place rest
      (fun tokens => G tokens ∧ (progress = false → tokens = source.pending)) F R) :
    (inner.settle >>= next).Leads permits place source P F R :=
  bind_of_evaluates fun hends hP _ _ hwhole hpermits => by
    obtain ⟨outcome, _, hevaluates, rfl⟩ := hwhole.parts
    have hinner := hinner hends hP hevaluates hpermits
    cases hresult : outcome.result? with
    | none =>
        rw [hresult] at hinner
        simp only [Outcome.withResult?, Outcome.settled, hresult]
        exact ⟨_, ⟨hinner, hevaluates.pending_of_lastRead hends⟩, hfailed _ _⟩
    | some result =>
        rw [hresult] at hinner
        simp only [Outcome.withResult?, Outcome.settled, hresult]
        exact ⟨Q result, hinner, hdone result _⟩

theorem optional {inner : Parser α} {Q : Option α → List Token → Prop}
    (hinner : inner.Leads permits place source P (Q none) fun result => Q (some result)) :
    (Parser.optional inner).Leads permits place source P F Q :=
  settle_bind hinner (fun _ _ => pure id) fun _ _ => pure And.left

theorem optional_bind {inner : Parser α} {next : Option α → Parser β}
    (hinner : inner.Leads permits place source P G Q)
    (hsome : ∀ result rest, (next (some result)).Leads permits place rest (Q result) F R)
    (hnone : ∀ rest, (next none).Leads permits place rest G F R) :
    (Parser.optional inner >>= next).Leads permits place source P F R :=
  bind (Q := fun result? => match result? with
    | some result => Q result
    | none => G) (optional hinner) fun result? rest => by
      cases result? with
      | none => exact hnone rest
      | some result => exact hsome result rest

/-- A loop keeps what each of its turns does. -/
theorem loop {turn : β → Parser (Step β α)} {I : β → List Token → Prop}
    (hturn : ∀ state source, (turn state).Leads permits place source (I state) F fun
      | .more next => I next
      | .done result => Q result) (init : β) :
    (Parser.loop init turn).Leads permits place source (I init) F Q := by
  intro hends hI outcome peak hevaluates hpermits
  -- By induction on the evaluation, in which the rest of a loop is a loop from another state.
  generalize hloop : Parser.loop init turn = parser at hevaluates
  induction hevaluates generalizing init with
  | loopMore hevaluates hresult _ _ _ ih =>
      obtain ⟨⟩ := hloop
      obtain ⟨hpermits₁, hpermits₂⟩ := List.forall_mem_append.mp hpermits
      have hfirst := hturn _ _ hends hI hevaluates hpermits₁
      rw [hresult] at hfirst
      exact ih hturn _ (hevaluates.ends hends) hfirst hpermits₂ rfl
  | loopDone hevaluates hresult | loopFailed hevaluates hresult =>
      obtain ⟨⟩ := hloop
      have hlast := hturn _ _ hends hI hevaluates hpermits
      simpa only [hresult, Outcome.withResult?] using hlast
  | _ => cases hloop

/-- Where it does not matter what a turn comes to, neither does it afterwards. -/
theorem loop_evenly {turn : β → Parser (Step β α)}
    (hturn : ∀ state source, (turn state).Leads permits place source M F fun _ => M) (init : β) :
    (Parser.loop init turn).Leads permits place source M F fun _ => M :=
  loop (I := fun _ => M) (fun state source => (hturn state source).post
    fun step _ => by cases step <;> exact id) init

theorem collect {turn : Parser (Turn α)} {I : List Token → Prop}
    (hturn : ∀ source, turn.Leads permits place source I F fun taken =>
      if taken.again then I else M) :
    (Parser.collect turn).Leads permits place source I F fun _ => M := by
  refine loop (I := fun _ => I) (fun collected source => ?_) []
  refine (hturn source).bind fun taken rest => pure ?_
  cases taken.again <;> exact id

theorem collect_evenly {turn : Parser (Turn α)}
    (hturn : ∀ source, turn.Leads permits place source M F fun _ => M) :
    (Parser.collect turn).Leads permits place source M F fun _ => M :=
  collect fun source => (hturn source).post fun taken _ => by split <;> exact id

/-- A goal is reached as its rule says, or refused. -/
theorem nested {goal : Goal} {Q : goal.Result → List Token → Prop}
    (hrule : place.depth < place.limit → (place.grammar.rule goal).Leads permits
      (place.inside source.pending.length) source P F Q)
    (hrefusal : (place.grammar.refusal goal).Leads permits
      (place.refusing source.pending.length) source P F Q) :
    (Parser.nested goal).Leads permits place source P F Q := by
  intro hends hP outcome peak hevaluates
  obtain ⟨hdepth, peak, hevaluates⟩ | ⟨peak, hevaluates⟩ := hevaluates.parts
  · exact hrule hdepth hends hP hevaluates
  · exact hrefusal hends hP hevaluates

end Leads

end Parser

/-! ## Enclosures -/

/-- Tokens that may be read anywhere. Braces change what is around, and the word `export` may
begin the next statement. -/
def Kind.isCommon (kind : Kind) : Bool :=
  kind != .mark .openBrace && kind != .mark .closeBrace && kind != .word .export

theorem Kind.isCommon_of {kind : Kind} (hopen : kind ≠ .mark .openBrace)
    (hclose : kind ≠ .mark .closeBrace) (hexport : kind ≠ .word .export) :
    kind.isCommon = true := by
  simp only [isCommon, Bool.and_eq_true, bne_iff_ne]
  exact ⟨⟨hopen, hclose⟩, hexport⟩

theorem Kind.isCommon_of_isBindingName {kind : Kind} (h : kind.isBindingName = true) :
    kind.isCommon = true := by
  apply isCommon_of <;> rintro rfl <;> cases h

theorem Kind.isCommon_of_isName {kind : Kind} (h : kind.isName = true)
    (hexport : kind ≠ .word .export) : kind.isCommon = true := by
  refine isCommon_of ?_ ?_ hexport <;> rintro rfl <;> cases h

/-- A stretch of tokens that parsers do not leave. It has several homes, since braces inside of
it are stretches of their own. -/
structure Enclosure where
  Home : Type
  /-- The tokens begin inside of the stretch. -/
  Holds : Home → List Token → Prop
  /-- What may be reported. -/
  Permits : Diagnostic → Prop
  /-- There may be groups in brackets inside. -/
  Grouped : Prop
  next {home : Home} {tokens : List Token} (h : Holds home tokens) :
    ∃ token rest, tokens = token :: rest ∧ token.kind ≠ .endOfText
  common {home : Home} {token : Token} {rest : List Token} (h : Holds home (token :: rest))
    (hkind : token.kind.isCommon = true) : Holds home rest
  /-- Without groups the word `export` is only found where it begins a line. -/
  resumes {home : Home} {token : Token} {rest : List Token} (h : Holds home (token :: rest))
    (hkind : token.kind = .word .export) :
    Grouped ∧ Holds home rest ∨ ¬Grouped ∧ token.newlineBefore = true
  /-- A dot after a word has another word after it. -/
  segment {home : Home} {name dot word : Token} {rest : List Token}
    (hname : Holds home (name :: dot :: word :: rest)) (hdot : Holds home (dot :: word :: rest))
    (hnameKind : name.kind.isName = true) (hdotKind : dot.kind = .mark .dot)
    (hwordKind : word.kind.isName = true) : Holds home (word :: rest) ∧ Holds home rest
  opening {home : Home} {token : Token} {rest : List Token} (h : Holds home (token :: rest))
    (hkind : opensGroup token.kind = true ∨ token.kind = .mark .openAngle) : Grouped
  group {home : Home} {token : Token} {rest : List Token} (h : Holds home (token :: rest))
    (hkind : opensGroup token.kind = true) :
    ∃ left, afterGroup 0 (token :: rest) = some left ∧ Holds home left
  /-- Inside of braces there is a stretch of its own, and behind them this one goes on. -/
  brace {home : Home} {token : Token} {rest : List Token} (h : Holds home (token :: rest))
    (hkind : token.kind = .mark .openBrace) :
    ∃ inner, Holds inner rest ∧ ∀ closing left, closing.kind = .mark .closeBrace →
      Holds inner (closing :: left) → Holds home left

namespace Enclosure

variable {E : Enclosure} {home : E.Home} {source : TokenStream}

theorem pending_eq (h : E.Holds home source.pending) :
    source.pending = source.peek :: source.advance.pending ∧ source.peek.kind ≠ .endOfText := by
  obtain ⟨token, rest, heq, hkind⟩ := E.next h
  simp [TokenStream.peek, TokenStream.advance, heq, hkind]

/-- The stretch with its next token in front. -/
theorem holds_cons (h : E.Holds home source.pending) :
    E.Holds home (source.peek :: source.advance.pending) :=
  (pending_eq h).1 ▸ h

theorem holds_advance (h : E.Holds home source.pending)
    (hkind : source.peek.kind.isCommon = true) : E.Holds home source.advance.pending :=
  E.common (holds_cons h) hkind

/-- Where an opening bracket is next there may be groups. -/
theorem grouped_of_opening {mark : Mark} (h : E.Holds home source.pending)
    (hkind : source.peek.kind = .mark mark)
    (hmark : opensGroup (.mark mark) = true ∨ mark = .openAngle) : E.Grouped := by
  apply E.opening (holds_cons h)
  rw [hkind]
  exact hmark.imp_right (congrArg Kind.mark)

/-- Where groups may be, any word may be read. -/
theorem holds_advance_word (hgrouped : E.Grouped) (h : E.Holds home source.pending)
    (hkind : source.peek.kind.isName = true) : E.Holds home source.advance.pending := by
  by_cases hexport : source.peek.kind = .word .export
  · obtain ⟨-, hrest⟩ | ⟨hplain, -⟩ := E.resumes (holds_cons h) hexport
    · exact hrest
    · exact absurd hgrouped hplain
  · exact holds_advance h (Kind.isCommon_of_isName hkind hexport)

/-- A word was read, and the stretch goes on behind it. -/
def Named (E : Enclosure) (home : E.Home) (tokens : List Token) : Prop :=
  E.Holds home tokens ∧ ∃ name, name.kind.isName = true ∧ E.Holds home (name :: tokens)

/-- Behind the closing brace of the inner stretch the outer one goes on. -/
def Resumes (E : Enclosure) (home inner : E.Home) : Prop :=
  ∀ closing left, closing.kind = .mark .closeBrace → E.Holds inner (closing :: left) →
    E.Holds home left

/-- A closing brace is next. -/
def Closes (E : Enclosure) (home : E.Home) (tokens : List Token) : Prop :=
  E.Holds home tokens ∧ ∃ closing rest, tokens = closing :: rest ∧
    closing.kind = .mark .closeBrace

end Enclosure

namespace Parser

variable {α β : Type} {E : Enclosure} {home : E.Home} {place : Place} {source : TokenStream}
  {P F : List Token → Prop} {R : β → List Token → Prop}

/-- Inside of the stretch the parser stays inside, also where it fails. -/
abbrev Stays (home : E.Home) (place : Place) (source : TokenStream) (parser : Parser α) : Prop :=
  parser.Leads E.Permits place source (E.Holds home) (E.Holds home) fun _ => E.Holds home

namespace Leads

/-- What is undone may fail anywhere. -/
theorem tried {parser : Parser α} (h : parser.Stays home place source) :
    parser.Leads E.Permits place source (E.Holds home) (fun _ => True) fun _ => E.Holds home :=
  h.mono id (fun _ _ => trivial) fun _ _ => id

theorem common_bind {next : Token → Parser β} (h : source.peek.kind.isCommon = true)
    (hnext : (next source.peek).Leads E.Permits place source.advance (E.Holds home) F R) :
    (Parser.advance >>= next).Leads E.Permits place source (E.Holds home) F R :=
  advance_bind (fun hholds => Enclosure.holds_advance hholds h) hnext

/-- Behind an opening bracket it is known that there may be groups. -/
theorem opening_bind {next : Token → Parser β} {mark : Mark} (h : source.peek.kind = .mark mark)
    (hmark : opensGroup (.mark mark) = true ∨ mark = .openAngle)
    (hcommon : (Kind.mark mark).isCommon = true)
    (hnext : E.Grouped →
      (next source.peek).Leads E.Permits place source.advance (E.Holds home) F R) :
    (Parser.advance >>= next).Leads E.Permits place source (E.Holds home) F R := by
  refine of_before fun _ hholds => common_bind (h ▸ hcommon) (hnext ?_)
  exact Enclosure.grouped_of_opening hholds h hmark

theorem skipIf {kind : Kind} (h : kind.isCommon = true) :
    (Parser.skipIf kind).Stays home place source := by
  refine observe .peekKind ?_
  split
  next heq => exact common_bind (heq ▸ h) idle
  next => exact idle

theorem expect {kind : Kind} (h : kind.isCommon = true) :
    (Parser.expect kind).Stays home place source := by
  refine observe .peekKind ?_
  split
  next heq => exact advance fun hholds => Enclosure.holds_advance hholds (heq ▸ h)
  next => exact refuse fun _ => id

theorem expect_opening_bind {next : Token → Parser β} {mark : Mark}
    (hmark : opensGroup (.mark mark) = true ∨ mark = .openAngle)
    (hcommon : (Kind.mark mark).isCommon = true) (hF : ∀ tokens, E.Holds home tokens → F tokens)
    (hnext : E.Grouped → ∀ token rest,
      (next token).Leads E.Permits place rest (E.Holds home) F R) :
    (Parser.expect (.mark mark) >>= next).Leads E.Permits place source (E.Holds home) F R := by
  refine bind (Q := fun _ tokens => E.Grouped ∧ E.Holds home tokens) ?_ fun token rest => ?_
  · refine observe .peekKind ?_
    split
    next heq =>
      refine of_before fun _ hholds => advance fun _ => ⟨?_, ?_⟩
      · exact Enclosure.grouped_of_opening hholds heq hmark
      · exact Enclosure.holds_advance hholds (heq ▸ hcommon)
    next => exact refuse fun _ => hF _
  · exact of_before fun _ hbefore => (hnext hbefore.1 token rest).pre And.right

theorem expectOrReport {kind : Kind} (h : kind.isCommon = true) :
    (Parser.expectOrReport kind).Stays home place source :=
  optional_bind (expect h) (fun _ _ => idle) fun _ => idle

/-- Behind an opening brace an inner stretch begins. -/
theorem brace_bind {next : Token → Parser β} (h : source.peek.kind = .mark .openBrace)
    (hnext : E.Grouped → ∀ inner, E.Resumes home inner →
      (next source.peek).Leads E.Permits place source.advance (E.Holds inner) F R) :
    (Parser.advance >>= next).Leads E.Permits place source (E.Holds home) F R := by
  refine of_before fun _ hholds => ?_
  obtain ⟨inner, hinner, hresumes⟩ := E.brace (Enclosure.holds_cons hholds) h
  have hgrouped := Enclosure.grouped_of_opening hholds h (.inl rfl)
  exact advance_bind (fun _ => hinner) (hnext hgrouped inner hresumes)

theorem expect_brace_bind {next : Token → Parser β} (hF : ∀ tokens, E.Holds home tokens → F tokens)
    (hnext : ∀ inner, E.Resumes home inner → ∀ token rest,
      (next token).Leads E.Permits place rest (E.Holds inner) F R) :
    (Parser.expect (.mark .openBrace) >>= next).Leads E.Permits place source
      (E.Holds home) F R := by
  refine bind (Q := fun _ tokens => ∃ inner, E.Resumes home inner ∧ E.Holds inner tokens)
    ?_ fun token rest => ?_
  · refine observe .peekKind ?_
    split
    next heq =>
      refine advance fun hholds => ?_
      obtain ⟨inner, hinner, hresumes⟩ := E.brace (Enclosure.holds_cons hholds) heq
      exact ⟨inner, hresumes, hinner⟩
    next => exact refuse fun _ => hF _
  · refine of_before fun _ ⟨inner, hresumes, hinner⟩ => ?_
    exact (hnext inner hresumes token rest).pre fun _ => hinner

/-- Behind the closing brace of an inner stretch the outer one goes on. -/
theorem expect_closing {inner : E.Home} (h : E.Resumes home inner) :
    (Parser.expect (.mark .closeBrace)).Leads E.Permits place source (E.Holds inner)
      (fun _ => True) fun _ => E.Holds home := by
  refine observe .peekKind ?_
  split
  next heq => exact advance fun hholds => h _ _ heq (Enclosure.holds_cons hholds)
  next => exact refuse fun _ _ => trivial

theorem expectOrReport_closing {inner : E.Home} {M : List Token → Prop}
    (h : ∀ closing left, closing.kind = .mark .closeBrace → E.Holds inner (closing :: left) →
      M left) :
    (Parser.expectOrReport (.mark .closeBrace)).Leads E.Permits place source (E.Closes inner) F
      fun _ => M := by
  refine of_before fun _ ⟨hholds, closing, left, heq, hkind⟩ => ?_
  have hpeek : source.peek.kind = .mark .closeBrace := by simp [TokenStream.peek, heq, hkind]
  refine optional_bind (G := fun _ => False) (Q := fun _ => M) ?_ (fun _ _ => idle) fun _ => ?_
  · refine observe .peekKind ?_
    rw [if_pos hpeek]
    exact advance fun _ => h _ _ hpeek (Enclosure.holds_cons hholds)
  · exact never id

end Leads

end Parser

/-- Goals that are reached inside of the stretch stay inside. The members of a body come to an
end at its closing brace. -/
class Place.Encloses (place : Place) (E : Enclosure) : Prop where
  type {home : E.Home} {source : TokenStream} : (Parser.nested .type).Stays home place source
  operand (inBound : Bool) {home : E.Home} {source : TokenStream} :
    (Parser.nested (.operand inBound)).Stays home place source
  constraint (inBound : Bool) {home : E.Home} {source : TokenStream}
    (h : source.peek.kind = .word .extends) :
    (Parser.nested (.constraint inBound)).Stays home place source
  members (hgrouped : E.Grouped) {home : E.Home} {source : TokenStream} :
    (Parser.nested .members).Leads E.Permits place source (E.Holds home) (fun _ => False)
      fun _ => E.Closes home
  classMembers (hgrouped : E.Grouped) {home : E.Home} {source : TokenStream} :
    (Parser.nested .classMembers).Leads E.Permits place source (E.Holds home) (fun _ => False)
      fun _ => E.Closes home

end DeclFile
