import DeclFile.Proofs.Meets
import DeclFile.Parser.Recovery

/-! # Brackets

Brackets nest properly if each is closed by one of its own kind. Two sorts of groups are
passed over by counting brackets only, whatever kind they are: what a parameter is destructured
into, and the attributes of an import, which may even go on to the end of the text. The rules
here say what a parser that reports nothing does with the brackets that it reads, by carrying
what is left of the text back to what there was.
-/

namespace DeclFile

open DeclFile.Parser (opensGroup closesGroup)

/-! ## Nesting -/

/-- The mark that closes what a kind of token opens. -/
def closer? : Kind → Option Mark
  | .mark .openBrace => some .closeBrace
  | .mark .openBracket => some .closeBracket
  | .mark .openParen => some .closeParen
  | _ => none

/-- Whether a kind of token is a bracket. -/
def isBracket (kind : Kind) : Bool := opensGroup kind || closesGroup kind

/-- Each bracket closes the innermost open one and all are closed at the end; `awaited` are
the marks that close those already open. -/
def properlyNested : (awaited : List Mark) → List Token → Bool
  | awaited, [] => awaited.isEmpty
  | awaited, token :: rest =>
      match closer? token.kind with
      | some mark => properlyNested (mark :: awaited) rest
      | none =>
          if closesGroup token.kind then
            match awaited with
            | mark :: others => token.kind == .mark mark && properlyNested others rest
            | [] => false
          else properlyNested awaited rest

/-- How many groups are open after a token, of which `depth` were before it; none if it ends
the outermost one, or is by itself. -/
def depthAfter (depth : Nat) (kind : Kind) : Option Nat :=
  if opensGroup kind then some (depth + 1)
  else if closesGroup kind then if depth ≤ 1 then none else some (depth - 1)
  else if depth = 0 then none else some depth

/-- What is left after a group, counting brackets without telling their kinds apart; `depth`
of them are open. Nothing if the group does not end. -/
def afterGroup : (depth : Nat) → List Token → Option (List Token)
  | _, [] => none
  | depth, token :: rest =>
      match depthAfter depth token.kind with
      | some depth => afterGroup depth rest
      | none => some rest

/-- Whether a parameter may begin after a token in parentheses. -/
def precedesParam : Kind → Bool
  | .mark .comma | .mark .ellipsis => true
  | .word .public | .word .private | .word .protected | .word .readonly | .word .override => true
  | _ => false

/-- Whether a token announces the attributes of an import. -/
def announcesAttributes (token : Token) : Bool :=
  token.kind == .identifier && (token.text == "with" || token.text == "assert") &&
    !token.newlineBefore

/-- The brackets nest, but for groups that are passed over by counting. A parameter may begin
here if `fresh` holds. -/
inductive Nests : (fresh : Bool) → (awaited : List Mark) → List Token → Prop
  | done {fresh : Bool} : Nests fresh [] []
  | plain {fresh : Bool} {awaited : List Mark} {token : Token} {rest : List Token}
      (htoken : isBracket token.kind = false) (hrest : Nests false awaited rest) :
      Nests fresh awaited (token :: rest)
  | opening {fresh : Bool} {awaited : List Mark} {token : Token} {rest : List Token} {mark : Mark}
      (htoken : closer? token.kind = some mark)
      (hrest : Nests (mark == .closeParen) (mark :: awaited) rest) :
      Nests fresh awaited (token :: rest)
  | closing {fresh : Bool} {awaited : List Mark} {token : Token} {rest : List Token} {mark : Mark}
      (htoken : token.kind = .mark mark) (hrest : Nests false awaited rest) :
      Nests fresh (mark :: awaited) (token :: rest)
  /-- After a token like a comma, the next parameter begins. -/
  | preceding {fresh : Bool} {awaited : List Mark} {token : Token} {rest : List Token}
      (htoken : precedesParam token.kind = true)
      (hrest : Nests true (.closeParen :: awaited) rest) :
      Nests fresh (.closeParen :: awaited) (token :: rest)
  /-- What a parameter is destructured into is passed over. -/
  | destructured {awaited : List Mark} {token : Token} {rest after : List Token}
      (htoken : token.kind = .mark .openBrace ∨ token.kind = .mark .openBracket)
      (hafter : afterGroup 0 (token :: rest) = some after) (hrest : Nests false awaited after) :
      Nests true awaited (token :: rest)
  /-- The attributes of an import are passed over. -/
  | attributes {fresh : Bool} {awaited : List Mark} {word brace : Token} {rest after : List Token}
      (hword : announcesAttributes word = true) (hbrace : brace.kind = .mark .openBrace)
      (hafter : afterGroup 0 (brace :: rest) = some after) (hrest : Nests false awaited after) :
      Nests fresh awaited (word :: brace :: rest)
  /-- Attributes that do not end are passed over too, if nothing else is open. -/
  | unclosed {fresh : Bool} {word brace : Token} {rest : List Token}
      (hword : announcesAttributes word = true) (hbrace : brace.kind = .mark .openBrace)
      (hafter : afterGroup 0 (brace :: rest) = none) :
      Nests fresh [] (word :: brace :: rest)

namespace Nests

variable {awaited : List Mark} {tokens : List Token}

/-- Where no parameter begins, one may as well. -/
theorem fresh (h : Nests false awaited tokens) (fresh : Bool) : Nests fresh awaited tokens := by
  cases h with
  | done => exact .done
  | plain htoken hrest => exact .plain htoken hrest
  | opening htoken hrest => exact .opening htoken hrest
  | closing htoken hrest => exact .closing htoken hrest
  | preceding htoken hrest => exact .preceding htoken hrest
  | attributes hword hbrace hafter hrest => exact .attributes hword hbrace hafter hrest
  | unclosed hword hbrace hafter => exact .unclosed hword hbrace hafter

theorem nil_iff {fresh : Bool} : Nests fresh awaited [] ↔ awaited = [] :=
  ⟨fun h => by cases h; rfl, fun h => h ▸ .done⟩

end Nests

/-! ## Carrying back -/

/-- Nothing unread is the end of the text. -/
def TokenStream.Ends (stream : TokenStream) : Prop :=
  ∀ token ∈ stream.pending, token.kind ≠ .endOfText

theorem Evaluates.pending_suffix {place : Place} {α : Type} {parser : Parser α}
    {source : TokenStream} {outcome : Outcome TokenStream α} {peak : Nat}
    (h : Evaluates place parser source outcome peak) : outcome.rest.pending <:+ source.pending := by
  induction h with
  | bind _ _ _ ih₁ ih₂ | loopMore _ _ _ _ ih₁ ih₂ => exact ih₂.trans ih₁
  | advance source => exact List.tail_suffix _
  | @attempt _ _ _ source outcome _ _ ih =>
      unfold Outcome.attempted
      split
      · exact ih
      · exact List.suffix_rfl
  | bindFailed _ _ ih | withSpan _ ih | settle _ ih | loopDone _ _ ih | loopFailed _ _ ih
  | nested _ _ _ ih | refused _ _ _ ih => exact ih
  | _ => exact List.suffix_rfl

theorem Evaluates.ends {place : Place} {α : Type} {parser : Parser α} {source : TokenStream}
    {outcome : Outcome TokenStream α} {peak : Nat}
    (h : Evaluates place parser source outcome peak) (hends : source.Ends) : outcome.rest.Ends :=
  fun token htoken => hends token (h.pending_suffix.subset htoken)

/-- What the evaluation of a parser says of its parts. -/
def Evaluates.Parts (place : Place) (source : TokenStream) :
    {α : Type} → Parser α → Outcome TokenStream α → Prop
  | _, .bind first next, whole => ∃ before peak, Evaluates place first source before peak ∧
      match before.result? with
      | some result => ∃ after peak, Evaluates place (next result) before.rest after peak ∧
          whole = before.followedBy after
      | none => whole = before.withResult? none
  | _, .withSpan start? inner, whole => ∃ outcome peak,
      Evaluates place inner source outcome peak ∧
      whole = outcome.spannedFrom place.file (start?.getD source.peek.span.start)
  | _, .attempt inner, whole => ∃ outcome peak, Evaluates place inner source outcome peak ∧
      whole = outcome.attempted source
  | _, .settle inner, whole => ∃ outcome peak, Evaluates place inner source outcome peak ∧
      whole = outcome.withResult? (some outcome.settled)
  | _, .nested goal, whole =>
      (place.depth < place.limit ∧ ∃ peak, Evaluates
        (place.inside source.pending.length) (place.grammar.rule goal) source whole peak) ∨
      ∃ peak, Evaluates (place.refusing source.pending.length) (place.grammar.refusal goal) source
        whole peak
  | _, _, _ => True

theorem Evaluates.parts {place : Place} {α : Type} {parser : Parser α} {source : TokenStream}
    {outcome : Outcome TokenStream α} {peak : Nat}
    (h : Evaluates place parser source outcome peak) : Parts place source parser outcome := by
  cases h with
  | bind hbefore hresult hafter =>
      exact ⟨_, _, hbefore, by rw [hresult]; exact ⟨_, _, hafter, rfl⟩⟩
  | bindFailed hbefore hresult => exact ⟨_, _, hbefore, by rw [hresult]⟩
  | withSpan hinner | attempt hinner | settle hinner => exact ⟨_, _, hinner, rfl⟩
  | nested _ hdepth hrule => exact .inl ⟨hdepth, _, hrule⟩
  | refused _ _ hrefusal => exact .inr ⟨_, hrefusal⟩
  | _ => trivial

namespace Parser

variable {α β : Type}

/-- Wherever the parser comes to an end there without a report, it has a result, or may fail in
silence, and `Q` of what is left then carries back to `P` of what there was. -/
def Carries (place : Place) (silent : Prop) (source : TokenStream) (parser : Parser α)
    (P : List Token → Prop) (Q : α → List Token → Prop) : Prop :=
  source.Ends → ∀ {outcome : Outcome TokenStream α} {peak : Nat},
    Evaluates place parser source outcome peak → outcome.reported = [] →
    match outcome.result? with
    | some result => Q result outcome.rest.pending → P source.pending
    | none => silent

namespace Carries

variable {place : Place} {silent : Prop} {source : TokenStream} {P M : List Token → Prop}
  {Q : α → List Token → Prop} {R : β → List Token → Prop}

theorem mono {silent' : Prop} {P' : List Token → Prop} {Q' : α → List Token → Prop}
    {parser : Parser α} (h : parser.Carries place silent source P Q) (hsilent : silent → silent')
    (hP : P source.pending → P' source.pending)
    (hQ : ∀ result tokens, Q' result tokens → Q result tokens) :
    parser.Carries place silent' source P' Q' := by
  intro hends outcome peak hevaluates hquiet
  have h := h hends hevaluates hquiet
  split at h
  next => exact fun hrest => hP (h (hQ _ _ hrest))
  next => exact hsilent h

theorem of_ends {parser : Parser α} (h : source.Ends → parser.Carries place silent source P Q) :
    parser.Carries place silent source P Q :=
  fun hends => h hends hends

/-- Where failing is undone, it may be silent. -/
theorem quietly {parser : Parser α} (h : parser.Carries place False source P Q) :
    parser.Carries place silent source P Q :=
  h.mono False.elim id fun _ _ => id

theorem pure {result : α} (h : ∀ tokens, Q result tokens → P tokens) :
    (Pure.pure result : Parser α).Carries place silent source P Q := by
  intro _ outcome peak hevaluates _
  cases hevaluates
  exact h _

/-- Where nothing is done everything is as it was. -/
theorem idle {result : α} :
    (Pure.pure result : Parser α).Carries place silent source (Q result) Q :=
  pure fun _ => id

theorem fail (h : silent) : (Parser.fail : Parser α).Carries place silent source P Q := by
  intro _ outcome peak hevaluates _
  cases hevaluates
  exact h

/-- What is done after a part depends on how that ended. -/
theorem bind_of_evaluates {first : Parser α} {next : α → Parser β}
    (h : ∀ {before : Outcome TokenStream α} {peak : Nat}, source.Ends →
      Evaluates place first source before peak → before.reported = [] →
      match before.result? with
      | some result => ∃ M : List Token → Prop, (M before.rest.pending → P source.pending) ∧
          (next result).Carries place silent before.rest M R
      | none => silent) :
    (first >>= next).Carries place silent source P R := by
  intro hends outcome peak hevaluates hquiet
  obtain ⟨before, _, hbefore, hafter⟩ := hevaluates.parts
  split at hafter
  next result hresult =>
    obtain ⟨after, _, hafter, rfl⟩ := hafter
    obtain ⟨hquiet₁, hquiet₂⟩ := List.append_eq_nil_iff.mp hquiet
    have hfirst := h hends hbefore hquiet₁
    simp only [hresult] at hfirst
    obtain ⟨M, hM, hnext⟩ := hfirst
    have hrest := hnext (hbefore.ends hends) hafter hquiet₂
    simp only [Outcome.followedBy]
    split at hrest
    next => exact fun hleft => hM (hrest hleft)
    next => exact hrest
  next hresult =>
    subst hafter
    have hfirst := h hends hbefore hquiet
    simpa only [hresult, Outcome.withResult?] using hfirst

theorem bind {first : Parser α} {next : α → Parser β}
    (hfirst : first.Carries place silent source P Q)
    (hnext : ∀ result rest, (next result).Carries place silent rest (Q result) R) :
    (first >>= next).Carries place silent source P R :=
  bind_of_evaluates fun hends hevaluates hquiet => by
    have hfirst := hfirst hends hevaluates hquiet
    split at hfirst
    next result _ => exact ⟨Q result, hfirst, hnext result _⟩
    next => exact hfirst

/-- A result that never comes without a report is of no concern afterwards. -/
theorem bind_of_never {first : Parser α} {next : α → Parser β} {never : α → Prop}
    (hfirst : first.Carries place silent source P Q)
    (hnever : first.Carries place silent source (fun _ => False) fun result _ => never result)
    (hnext : ∀ result rest, ¬never result → (next result).Carries place silent rest (Q result) R) :
    (first >>= next).Carries place silent source P R :=
  bind_of_evaluates fun hends hevaluates hquiet => by
    have hfirst := hfirst hends hevaluates hquiet
    have hnever := hnever hends hevaluates hquiet
    split at hfirst
    next result hresult =>
      rw [hresult] at hnever
      exact ⟨Q result, hfirst, hnext result _ hnever⟩
    next => exact hfirst

theorem map {parser : Parser α} {f : α → β}
    (h : parser.Carries place silent source P fun result => R (f result)) :
    (f <$> parser).Carries place silent source P R :=
  h.bind fun _ _ => idle

theorem fail_bind {next : α → Parser β} (h : silent) :
    (Parser.fail >>= next).Carries place silent source P R :=
  bind_of_evaluates fun _ hevaluates _ => by
    obtain rfl := hevaluates.unique (.fail source)
    exact h

/-- Something may be read before the rest. -/
theorem when {condition : Prop} [Decidable condition] {first : Parser α} {rest : Parser β}
    (hfirst : condition → first.Carries place silent source P fun _ => M)
    (hskip : ¬condition → ∀ tokens, M tokens → P tokens)
    (hrest : ∀ source, rest.Carries place silent source M R) :
    (if condition then first >>= fun _ => rest else rest).Carries place silent source P R := by
  split
  next h => exact (hfirst h).bind fun _ => hrest
  next h => exact (hrest source).mono id (hskip h _) fun _ _ => id

/-- One thing or another may be read before the rest. -/
theorem either {condition : Prop} [Decidable condition] {first second : Parser α}
    {rest : α → Parser β} (hfirst : condition → first.Carries place silent source P Q)
    (hsecond : ¬condition → second.Carries place silent source P Q)
    (hrest : ∀ result source, (rest result).Carries place silent source (Q result) R) :
    (if condition then first >>= fun result => rest result
      else second >>= fun result => rest result).Carries place silent source P R := by
  split
  next h => exact (hfirst h).bind hrest
  next h => exact (hsecond h).bind hrest

/-- What is found out first may be put in its place. -/
theorem observe {first : Parser α} {next : α → Parser β} {result : α}
    (hfirst : Observes first source result)
    (hnext : (next result).Carries place silent source P R) :
    (first >>= next).Carries place silent source P R :=
  bind_of_evaluates fun _ hevaluates _ => by
    obtain rfl := hevaluates.unique (hfirst place)
    exact ⟨P, id, hnext⟩

/-! ### Reading and reporting -/

/-- After a report anything is carried back. -/
theorem report_bind {diagnostic : Diagnostic} {next : Unit → Parser β} :
    (Parser.report diagnostic >>= next).Carries place silent source P R :=
  bind_of_evaluates fun _ hevaluates hquiet => by
    obtain rfl := hevaluates.unique (.report diagnostic source)
    cases hquiet

theorem reportHere_bind {cause : Cause} {next : Unit → Parser β} :
    (Parser.reportHere cause >>= next).Carries place silent source P R :=
  bind_of_evaluates fun _ hevaluates hquiet => by
    have hpeek : Evaluates place Parser.peek source _ _ := Observes.peek place
    have hreport : Evaluates place (Parser.reportHere cause) source _ _ :=
      hpeek.bind rfl (.report _ source)
    obtain rfl := hevaluates.unique hreport
    cases hquiet

theorem refuse {cause : Kind → Cause} :
    (Parser.refuse cause : Parser α).Carries place silent source P Q :=
  observe .peek report_bind

theorem advance {Q : Token → List Token → Prop}
    (h : source.Ends → Q source.peek source.advance.pending → P source.pending) :
    Parser.advance.Carries place silent source P Q := by
  intro hends outcome peak hevaluates _
  obtain rfl := hevaluates.unique (.advance source)
  exact h hends

/-- After a token is read, the next one is the one that was ahead. -/
theorem advance_bind {next : Token → Parser β}
    (h : source.Ends → M source.advance.pending → P source.pending)
    (hnext : (next source.peek).Carries place silent source.advance M R) :
    (Parser.advance >>= next).Carries place silent source P R :=
  bind_of_evaluates fun hends hevaluates _ => by
    obtain rfl := hevaluates.unique (.advance source)
    exact ⟨M, h hends, hnext⟩

/-! ### Undoing and going on -/

theorem withSpan {start? : Option Pos} {parser : Parser α}
    (h : parser.Carries place silent source P Q) :
    (Parser.withSpan start? parser).Carries place silent source P fun found => Q found.1 := by
  intro hends whole peak hevaluates hquiet
  obtain ⟨outcome, _, hinner, rfl⟩ := hevaluates.parts
  have hinner' := h hends hinner hquiet
  cases hresult : outcome.result? <;>
    simpa [Outcome.spannedFrom, Outcome.withResult?, hresult] using hinner'

theorem spanned {parser : Parser α} {make : α → Span → β}
    (h : parser.Carries place silent source P fun _ => M) :
    (Parser.spanned make parser).Carries place silent source P fun _ => M :=
  h.withSpan.bind fun _ _ => idle

theorem attempt_bind {inner : Parser α} {next : Option α → Parser β}
    (hinner : inner.Carries place True source P Q)
    (hsome : ∀ result rest, (next (some result)).Carries place silent rest (Q result) R)
    (hnone : (next none).Carries place silent source P R) :
    (inner.attempt >>= next).Carries place silent source P R :=
  bind_of_evaluates fun hends hwhole _ => by
    obtain ⟨outcome, _, hevaluates, rfl⟩ := hwhole.parts
    obtain ⟨found, hfound, hreported, heq⟩ | heq := outcome.attempted_cases source
    · have hinner := hinner hends hevaluates hreported
      rw [hfound] at hinner
      rw [heq]
      exact ⟨Q found, hinner, hsome found _⟩
    · rw [heq]
      exact ⟨P, id, hnone⟩

theorem attempt {inner : Parser α} {Q : Option α → List Token → Prop}
    (hinner : inner.Carries place True source P fun result => Q (some result))
    (hnone : ∀ tokens, Q none tokens → P tokens) :
    inner.attempt.Carries place silent source P Q := by
  intro hends whole peak hwhole _
  obtain ⟨outcome, _, hevaluates, rfl⟩ := hwhole.parts
  -- What is kept of an attempt was reported nothing of, so it is quiet itself.
  obtain ⟨found, hfound, hreported, heq⟩ | heq := outcome.attempted_cases source
  · have hinner := hinner hends hevaluates hreported
    rw [hfound] at hinner
    rw [heq]
    exact hinner
  · rw [heq]
    exact hnone _

/-- Where a part that fails reports that, it may be taken to succeed. -/
theorem settle_bind {inner : Parser α} {next : Settled α → Parser β}
    (hinner : inner.Carries place False source P Q)
    (hdone : ∀ result rest, (next (.done result)).Carries place silent rest (Q result) R) :
    (inner.settle >>= next).Carries place silent source P R :=
  bind_of_evaluates fun hends hwhole hquiet => by
    obtain ⟨outcome, _, hevaluates, rfl⟩ := hwhole.parts
    have hinner := hinner hends hevaluates hquiet
    cases hresult : outcome.result? with
    | none => simp [hresult] at hinner
    | some result =>
        rw [hresult] at hinner
        simp only [Outcome.withResult?, Outcome.settled, hresult]
        exact ⟨Q result, hinner, hdone result _⟩

theorem optional {inner : Parser α} {Q : Option α → List Token → Prop}
    (hinner : inner.Carries place False source P fun result => Q (some result)) :
    (Parser.optional inner).Carries place silent source P Q :=
  settle_bind hinner fun _ _ => idle

theorem optional_bind {inner : Parser α} {next : Option α → Parser β}
    (hinner : inner.Carries place False source P Q)
    (hsome : ∀ result rest, (next (some result)).Carries place silent rest (Q result) R) :
    (Parser.optional inner >>= next).Carries place silent source P R :=
  bind_of_evaluates fun hends hwhole hquiet => by
    obtain ⟨_, _, hsettle, hafter⟩ := hwhole.parts
    obtain ⟨outcome, _, hevaluates, rfl⟩ := hsettle.parts
    obtain ⟨after, _, hafter, rfl⟩ := hafter
    have hinner := hinner hends hevaluates (List.append_eq_nil_iff.mp hquiet).1
    cases hresult : outcome.result? with
    | none => simp [hresult] at hinner
    | some result =>
        rw [hresult] at hinner
        simp only [Outcome.settled, hresult] at hafter
        obtain rfl := hafter.unique (.pure (some result) _)
        exact ⟨Q result, hinner, hsome result _⟩

/-- A loop carries back what each of its turns does. -/
theorem loop {turn : β → Parser (Step β α)} {I : β → List Token → Prop}
    (hturn : ∀ state source, (turn state).Carries place silent source (I state) fun
      | .more next => I next
      | .done result => Q result) (init : β) :
    (Parser.loop init turn).Carries place silent source (I init) Q := by
  intro hends outcome peak hevaluates hquiet
  -- By induction on the evaluation, in which the rest of a loop is a loop from another state.
  generalize hloop : Parser.loop init turn = parser at hevaluates
  induction hevaluates generalizing init with
  | loopMore hevaluates hresult _ _ _ ih =>
      obtain ⟨⟩ := hloop
      obtain ⟨hquiet₁, hquiet₂⟩ := List.append_eq_nil_iff.mp hquiet
      have hfirst := hturn _ _ hends hevaluates hquiet₁
      have hlater := ih hturn _ (hevaluates.ends hends) hquiet₂ rfl
      simp only [hresult] at hfirst
      simp only [Outcome.followedBy]
      split at hlater
      next => exact fun hleft => hfirst (hlater hleft)
      next => exact hlater
  | loopDone hevaluates hresult =>
      obtain ⟨⟩ := hloop
      have hlast := hturn _ _ hends hevaluates hquiet
      simpa only [hresult, Outcome.withResult?] using hlast
  | loopFailed hevaluates hresult =>
      obtain ⟨⟩ := hloop
      have hlast := hturn _ _ hends hevaluates hquiet
      simpa only [hresult, Outcome.withResult?] using hlast
  | _ => cases hloop

theorem collect {turn : Parser (Turn α)} {I F : List Token → Prop}
    (hturn : ∀ source, turn.Carries place silent source I fun taken =>
      if taken.again then I else F) :
    (Parser.collect turn).Carries place silent source I fun _ => F := by
  refine loop (I := fun _ => I) (fun collected source => ?_) []
  refine (hturn source).bind fun taken rest => ?_
  refine pure fun tokens => ?_
  cases taken.again <;> exact id

end Carries

/-- The parser reads with the brackets that `before` awaits and leaves those that `after` does. -/
abbrev Brackets (place : Place) (silent : Prop) (source : TokenStream) (parser : Parser α)
    (before after : List Mark) : Prop :=
  parser.Carries place silent source (Nests false before) fun _ => Nests false after

end Parser

/-! ## Reading brackets -/

section

variable {source : TokenStream} {fresh : Bool} {awaited : List Mark} {mark : Mark}

theorem TokenStream.kind_peek_of_nil (h : source.pending = []) : source.peek.kind = .endOfText := by
  simp [peek, h, source.last_kind]

theorem Nests.of_plain (h : isBracket source.peek.kind = false)
    (hrest : Nests false awaited source.advance.pending) : Nests fresh awaited source.pending := by
  cases hpending : source.pending with
  | nil => exact (by simpa [TokenStream.advance, hpending] using hrest : Nests _ _ []).fresh _
  | cons token rest =>
      simp only [TokenStream.peek, TokenStream.advance, hpending] at h hrest
      exact .plain h hrest

theorem Nests.of_opening (h : closer? source.peek.kind = some mark)
    (hrest : Nests (mark == .closeParen) (mark :: awaited) source.advance.pending) :
    Nests fresh awaited source.pending := by
  have hkind : source.peek.kind ≠ .endOfText := fun heq => by simp [heq, closer?] at h
  rw [TokenStream.pending_eq_of_peek hkind]
  exact .opening h hrest

/-- Behind an opening parenthesis a parameter may begin. -/
theorem Nests.of_paren (h : source.peek.kind = .mark .openParen)
    (hrest : Nests true (.closeParen :: awaited) source.advance.pending) :
    Nests fresh awaited source.pending := by
  have hcloser : closer? source.peek.kind = some .closeParen := h ▸ rfl
  exact .of_opening hcloser hrest

theorem Nests.of_preceding (h : precedesParam source.peek.kind = true)
    (hrest : Nests true (.closeParen :: awaited) source.advance.pending) :
    Nests fresh (.closeParen :: awaited) source.pending := by
  have hkind : source.peek.kind ≠ .endOfText := fun heq => by simp [heq, precedesParam] at h
  rw [TokenStream.pending_eq_of_peek hkind]
  exact .preceding h hrest

theorem Nests.of_closing (h : source.peek.kind = .mark mark)
    (hrest : Nests false awaited source.advance.pending) :
    Nests fresh (mark :: awaited) source.pending := by
  have hkind : source.peek.kind ≠ .endOfText := by simp [h]
  rw [TokenStream.pending_eq_of_peek hkind]
  exact .closing h hrest

end

namespace Parser.Carries

variable {α β : Type} {place : Place} {silent : Prop} {source : TokenStream} {awaited : List Mark}
  {fresh : Bool} {mark : Mark} {R : β → List Token → Prop}

theorem plain_bind {next : Token → Parser β} (h : isBracket source.peek.kind = false)
    (hnext : (next source.peek).Carries place silent source.advance (Nests false awaited) R) :
    (Parser.advance >>= next).Carries place silent source (Nests fresh awaited) R :=
  advance_bind (fun _ => .of_plain h) hnext

theorem opening_bind {next : Token → Parser β} {kind : Kind} (h : source.peek.kind = kind)
    (hkind : closer? kind = some mark)
    (hnext : (next source.peek).Carries place silent source.advance
      (Nests false (mark :: awaited)) R) :
    (Parser.advance >>= next).Carries place silent source (Nests fresh awaited) R :=
  advance_bind (fun _ hrest => .of_opening (h ▸ hkind) (hrest.fresh _)) hnext

theorem skipIf_of {kind : Kind} {P : List Token → Prop} {Q : Bool → List Token → Prop}
    (hyes : source.peek.kind = kind → Q true source.advance.pending → P source.pending)
    (hno : ∀ tokens, Q false tokens → P tokens) :
    (Parser.skipIf kind).Carries place silent source P Q := by
  refine observe .peekKind ?_
  split
  next heq => exact advance_bind (fun _ => hyes heq) idle
  next => exact pure hno

theorem skipIf {kind : Kind} (h : isBracket kind = false) :
    (Parser.skipIf kind).Carries place silent source (Nests fresh awaited)
      fun _ => Nests false awaited :=
  skipIf_of (fun heq => .of_plain (heq ▸ h)) fun _ hrest => hrest.fresh _

theorem expect_of {kind : Kind} {P M : List Token → Prop}
    (h : source.peek.kind = kind → M source.advance.pending → P source.pending) :
    (Parser.expect kind).Carries place silent source P fun _ => M := by
  refine observe .peekKind ?_
  split
  next heq => exact advance fun _ => h heq
  next => exact refuse

theorem expect {kind : Kind} (h : isBracket kind = false) :
    (Parser.expect kind).Brackets place silent source awaited awaited :=
  expect_of fun heq => .of_plain (heq ▸ h)

theorem expect_paren :
    (Parser.expect (.mark .openParen)).Carries place silent source (Nests fresh awaited)
      fun _ => Nests true (.closeParen :: awaited) :=
  expect_of .of_paren

theorem expect_opening {kind : Kind} (h : closer? kind = some mark) :
    (Parser.expect kind).Brackets place silent source awaited (mark :: awaited) :=
  expect_of fun heq hrest => .of_opening (heq ▸ h) (hrest.fresh _)

theorem expect_closing :
    (Parser.expect (.mark mark)).Brackets place silent source (mark :: awaited) awaited :=
  expect_of .of_closing

theorem expectOrReport {kind : Kind} (h : isBracket kind = false) :
    (Parser.expectOrReport kind).Brackets place silent source awaited awaited :=
  optional_bind (expect h) fun _ _ => idle

theorem expectOrReport_closing :
    (Parser.expectOrReport (.mark mark)).Brackets place silent source (mark :: awaited) awaited :=
  optional_bind expect_closing fun _ _ => idle

end Parser.Carries

/-! ## Goals -/

/-- The marks that close what was opened before a goal is reached and is closed with it. -/
def Goal.awaits : Goal → List Mark
  | .block => [.closeBrace]
  | _ => []

/-- Whatever goal is reached here, its brackets nest and it does not fail in silence. A
constraint is reached before `extends`. -/
class Place.Bracketed (place : Place) : Prop where
  brackets (goal : Goal) {source : TokenStream} {awaited : List Mark}
    (h : ∀ inBound, goal = .constraint inBound → source.peek.kind = .word .extends) :
    (Parser.nested goal).Brackets place False source (goal.awaits ++ awaited) awaited

end DeclFile
