import DeclFile.Proofs.Enclosure.Basic

/-! # Diagnostics come in the order of the text

What is reported is mostly at the next token, or at one just read, so that the diagnostics of a
run stand in the order of the text. Only the parameters of a getter or setter are reported when
all of them were read, at the parenthesis in front of them. The rules here follow what is reported
from part to part: it is neither in front of where the part begins nor beyond what it leaves.
-/

namespace DeclFile

open DeclFile.Parser (Turn)

/-- What may be wrong with the parameters of a getter or setter as a whole. -/
def accessorCauses : List Cause := [.getterParameters, .setterWithoutParameter, .setterParameters]

namespace Diagnostic

/-- It complains about the parameters of a getter or setter, at the parenthesis in front of
them. -/
def IsBelated (diagnostic : Diagnostic) : Prop :=
  ∃ cause ∈ accessorCauses, diagnostic = cause.at diagnostic.span

/-- It complains about parameters of the text behind which no token begins before `low`. -/
def EndsLate (text : List Token) (low : Nat) (diagnostic : Diagnostic) : Prop :=
  diagnostic.IsBelated ∧ ∀ token ∈ text,
    diagnostic.span.stop.offset ≤ token.span.start.offset → low ≤ token.span.start.offset

/-- The second diagnostic stands behind the first, or complains about parameters that the first
is in, or right behind. -/
def InTurn (text : List Token) (first second : Diagnostic) : Prop :=
  first.span.start.offset ≤ second.span.start.offset ∨
    second.EndsLate text first.span.start.offset

theorem EndsLate.mono {text : List Token} {low low' : Nat} {diagnostic : Diagnostic}
    (h : diagnostic.EndsLate text low') (hlow : low ≤ low') : diagnostic.EndsLate text low :=
  ⟨h.1, fun token htoken hstop => Nat.le_trans hlow (h.2 token htoken hstop)⟩

end Diagnostic

/-- The diagnostics come in turn, not before `low` unless they are about parameters that end
there, and not beyond `high`. -/
structure Successive (text : List Token) (low high : Nat) (reported : List Diagnostic) : Prop where
  low_le : ∀ diagnostic ∈ reported,
    low ≤ diagnostic.span.start.offset ∨ diagnostic.EndsLate text low
  le_high : ∀ diagnostic ∈ reported, diagnostic.span.start.offset ≤ high
  inTurn : reported.Pairwise (Diagnostic.InTurn text)

namespace Successive

variable {text : List Token} {low low' mid high : Nat} {first second : List Diagnostic}
  {diagnostic : Diagnostic}

theorem nil : Successive text low high [] := ⟨by simp, by simp, .nil⟩

theorem single (hlow : low ≤ diagnostic.span.start.offset ∨ diagnostic.EndsLate text low)
    (hhigh : diagnostic.span.start.offset ≤ high) : Successive text low high [diagnostic] :=
  ⟨by simpa using hlow, by simpa using hhigh, List.pairwise_singleton _ _⟩

theorem mono (h : Successive text low' high first) (hlow : low ≤ low') :
    Successive text low high first where
  low_le diagnostic hmem :=
    (h.low_le diagnostic hmem).imp (Nat.le_trans hlow) fun hlate => hlate.mono hlow
  le_high := h.le_high
  inTurn := h.inTurn

theorem append (hfirst : Successive text low mid first) (hsecond : Successive text mid high second)
    (hlow : low ≤ mid) (hhigh : mid ≤ high) : Successive text low high (first ++ second) where
  low_le := List.forall_mem_append.mpr ⟨hfirst.low_le, (hsecond.mono hlow).low_le⟩
  le_high := List.forall_mem_append.mpr
    ⟨fun diagnostic hmem => Nat.le_trans (hfirst.le_high diagnostic hmem) hhigh, hsecond.le_high⟩
  inTurn := by
    refine List.pairwise_append.mpr ⟨hfirst.inTurn, hsecond.inTurn, fun before hbefore after hafter
      => ?_⟩
    have hmid := hfirst.le_high before hbefore
    exact (hsecond.low_le after hafter).imp (Nat.le_trans hmid) fun hlate => hlate.mono hmid

end Successive

/-! ## Where a stream stands -/

namespace TokenStream

/-- Where the next token begins. -/
def front (stream : TokenStream) : Nat := stream.peek.span.start.offset

/-- The last tokens of the text are unread. The tokens begin one after another, and those that are
unread stop behind where they begin. -/
structure LiesIn (stream : TokenStream) (text : List Token) : Prop where
  suffix : stream.tokens <:+ text
  ascends : text.Pairwise fun first second => first.span.start.offset ≤ second.span.start.offset
  ends : stream.Ends
  nonempty : ∀ token ∈ stream.pending, token.span.start.offset < token.span.stop.offset

theorem LiesIn.front_le {stream : TokenStream} {text : List Token} {token : Token}
    (h : stream.LiesIn text) (hmem : token ∈ stream.tokens) :
    stream.front ≤ token.span.start.offset := by
  have hascends := h.ascends.sublist h.suffix.sublist
  obtain ⟨pending, last, size, directives, hlast⟩ := stream
  cases pending with
  | nil =>
      obtain rfl := List.mem_singleton.mp hmem
      exact Nat.le_refl _
  | cons first rest =>
      obtain rfl | hmem := List.mem_cons.mp hmem
      · exact Nat.le_refl _
      · exact (List.pairwise_cons.mp hascends).1 token hmem

end TokenStream

/-- Nothing but tokens is read. -/
theorem Evaluates.tokens_suffix {place : Place} {α : Type} {parser : Parser α}
    {source : TokenStream} {outcome : Outcome TokenStream α} {peak : Nat}
    (h : Evaluates place parser source outcome peak) : outcome.rest.tokens <:+ source.tokens := by
  induction h with
  | bind _ _ _ ih₁ ih₂ | loopMore _ _ _ _ ih₁ ih₂ => exact ih₂.trans ih₁
  | advance source =>
      obtain ⟨read, hread⟩ := source.pending.tail_suffix
      exact ⟨read, (List.append_assoc _ _ _).symm.trans (congrArg (· ++ [source.last]) hread)⟩
  | @attempt _ _ _ source outcome _ _ ih =>
      obtain ⟨_, -, -, heq⟩ | heq := outcome.attempted_cases source
      · rw [heq]
        exact ih
      · rw [heq]
        exact List.suffix_rfl
  | bindFailed _ _ ih | withSpan _ ih | settle _ ih | loopDone _ _ ih | loopFailed _ _ ih
  | nested _ _ _ ih | refused _ _ _ ih => exact ih
  | _ => exact List.suffix_rfl

section

variable {place : Place} {α : Type} {parser : Parser α} {source : TokenStream}
  {outcome : Outcome TokenStream α} {peak : Nat} {text : List Token}

theorem Evaluates.liesIn (h : Evaluates place parser source outcome peak)
    (hlies : source.LiesIn text) : outcome.rest.LiesIn text where
  suffix := h.tokens_suffix.trans hlies.suffix
  ascends := hlies.ascends
  ends := h.ends hlies.ends
  nonempty token htoken := hlies.nonempty token (h.pending_suffix.subset htoken)

theorem Evaluates.last_eq (h : Evaluates place parser source outcome peak) :
    outcome.rest.last = source.last := by
  obtain ⟨read, hread⟩ := h.tokens_suffix
  have hlast := congrArg List.getLast? hread
  simpa [TokenStream.tokens] using hlast

theorem Evaluates.front_le (h : Evaluates place parser source outcome peak)
    (hlies : source.LiesIn text) : source.front ≤ outcome.rest.front :=
  hlies.front_le (h.tokens_suffix.subset outcome.rest.peek_mem_tokens)

/-- No token begins behind what was read and in front of what is left. -/
theorem Evaluates.front_le_of_stop_le (h : Evaluates place parser source outcome peak)
    (hlies : source.LiesIn text) {token : Token} (htoken : token ∈ text)
    (hstop : (outcome.spanFrom place.file source.peek.span.start).stop.offset ≤
      token.span.start.offset) :
    outcome.rest.front ≤ token.span.start.offset := by
  obtain ⟨read, hread, hlast⟩ := h.reads hlies.ends
  obtain rfl | ⟨passed, last, rfl⟩ := read.eq_nil_or_concat'
  · -- Nothing was read, and the span stops at the next token.
    have hpeek : outcome.rest.peek = source.peek := by
      rw [TokenStream.peek, TokenStream.peek, h.last_eq, hread, List.nil_append]
    rw [TokenStream.front, hpeek]
    exact Nat.le_trans (Span.start_le_between _ _ _) hstop
  · have hlast : outcome.lastRead = some last.span := by rw [hlast, List.getLast?_concat]; rfl
    have hnonempty := hlies.nonempty last (by simp [hread])
    obtain ⟨before, htext⟩ := hlies.suffix
    have htokens : source.tokens = passed ++ last :: outcome.rest.tokens := by
      rw [TokenStream.tokens, TokenStream.tokens, hread, h.last_eq]
      simp
    rw [htokens, ← List.append_assoc] at htext
    rw [← htext] at htoken
    have hascends := List.pairwise_append.mp (htext ▸ hlies.ascends)
    rw [Outcome.spanFrom, hlast] at hstop
    have hstop : last.span.stop.offset ≤ _ := Nat.le_trans (Span.stop_le_between _ _ _) hstop
    obtain hbefore | hbehind := List.mem_append.mp htoken
    · have hle := hascends.2.2 token hbefore last List.mem_cons_self
      omega
    obtain rfl | hrest := List.mem_cons.mp hbehind
    · omega
    · exact (h.liesIn hlies).front_le hrest

end

/-! ## What is reported on the way -/

namespace Parser

variable {α β : Type}

/-- What the parser reports there comes in turn, from `low` on and up to what is left. -/
def ProceedsFrom (low : Nat) (text : List Token) (place : Place) (source : TokenStream)
    (parser : Parser α) : Prop :=
  source.LiesIn text → low ≤ source.front → ∀ {outcome : Outcome TokenStream α} {peak : Nat},
    Evaluates place parser source outcome peak →
    Successive text low outcome.rest.front outcome.reported

/-- What the parser reports there comes in turn, from the next token on. -/
abbrev Proceeds (text : List Token) (place : Place) (source : TokenStream) (parser : Parser α) :
    Prop :=
  parser.ProceedsFrom source.front text place source

namespace ProceedsFrom

variable {low : Nat} {text : List Token} {place : Place} {source : TokenStream}

theorem pure {result : α} : (Pure.pure result : Parser α).ProceedsFrom low text place source := by
  intro _ _ outcome peak hevaluates
  cases hevaluates
  exact .nil

theorem fail : (Parser.fail : Parser α).ProceedsFrom low text place source := by
  intro _ _ outcome peak hevaluates
  cases hevaluates
  exact .nil

theorem advance : Parser.advance.ProceedsFrom low text place source := by
  intro _ _ outcome peak hevaluates
  obtain rfl := hevaluates.unique (.advance source)
  exact .nil

theorem report {diagnostic : Diagnostic}
    (hlow : low ≤ diagnostic.span.start.offset ∨ diagnostic.EndsLate text low)
    (hhigh : diagnostic.span.start.offset ≤ source.front) :
    (Parser.report diagnostic).ProceedsFrom low text place source := by
  intro _ _ outcome peak hevaluates
  obtain rfl := hevaluates.unique (.report diagnostic source)
  exact .single hlow hhigh

/-! ### One after another -/

/-- What comes after a part depends on how that part was evaluated. -/
theorem bind_of_evaluates {first : Parser α} {next : α → Parser β}
    (hfirst : first.ProceedsFrom low text place source)
    (hnext : ∀ {before : Outcome TokenStream α} {peak : Nat} {result : α}, source.LiesIn text →
      Evaluates place first source before peak → before.result? = some result →
      (next result).Proceeds text place before.rest) :
    (first >>= next).ProceedsFrom low text place source := by
  intro hlies hlow outcome peak hevaluates
  obtain ⟨before, _, hbefore, hafter⟩ := hevaluates.parts
  split at hafter
  next result hresult =>
    obtain ⟨after, _, hafter, rfl⟩ := hafter
    have hrest := hbefore.liesIn hlies
    have hlater := hnext hlies hbefore hresult hrest (Nat.le_refl _) hafter
    exact (hfirst hlies hlow hbefore).append hlater
      (Nat.le_trans hlow (hbefore.front_le hlies)) (hafter.front_le hrest)
  next =>
    subst hafter
    exact hfirst hlies hlow hbefore

theorem bind {first : Parser α} {next : α → Parser β}
    (hfirst : first.ProceedsFrom low text place source)
    (hnext : ∀ result rest, (next result).Proceeds text place rest) :
    (first >>= next).ProceedsFrom low text place source :=
  bind_of_evaluates hfirst fun _ _ _ => hnext _ _

theorem map {parser : Parser α} {f : α → β} (h : parser.ProceedsFrom low text place source) :
    (f <$> parser).ProceedsFrom low text place source :=
  h.bind fun _ _ => pure

/-- Where nothing is reported at first, what comes after that may be reported where it began. -/
theorem bind_of_quiet {first : Parser α} {next : α → Parser β}
    (hnext : ∀ {before : Outcome TokenStream α} {peak : Nat}, source.LiesIn text →
      Evaluates place first source before peak → before.reported = [] ∧
        ∀ result ∈ before.result?, (next result).ProceedsFrom low text place before.rest) :
    (first >>= next).ProceedsFrom low text place source := by
  intro hlies hlow outcome peak hevaluates
  obtain ⟨before, _, hbefore, hafter⟩ := hevaluates.parts
  obtain ⟨hquiet, hnext⟩ := hnext hlies hbefore
  split at hafter
  next result hresult =>
    obtain ⟨after, _, hafter, rfl⟩ := hafter
    have hlater := hnext result hresult (hbefore.liesIn hlies)
      (Nat.le_trans hlow (hbefore.front_le hlies)) hafter
    rw [Outcome.followedBy, hquiet]
    exact hlater
  next =>
    subst hafter
    rw [Outcome.withResult?, hquiet]
    exact .nil

/-- What is found out first may be put in its place. -/
theorem observe {first : Parser α} {next : α → Parser β} {result : α}
    (hfirst : Observes first source result)
    (hnext : (next result).ProceedsFrom low text place source) :
    (first >>= next).ProceedsFrom low text place source :=
  bind_of_quiet fun _ hbefore => by
    obtain rfl := hbefore.unique (hfirst place)
    refine ⟨rfl, ?_⟩
    rintro _ ⟨⟩
    exact hnext

/-- Something may be done before the rest. -/
theorem when {condition : Prop} [Decidable condition] {first : Parser α} {rest : Parser β}
    (hfirst : first.Proceeds text place source)
    (hrest : ∀ source, rest.Proceeds text place source) :
    (if condition then first >>= fun _ => rest else rest).Proceeds text place source := by
  split
  · exact hfirst.bind fun _ => hrest
  · exact hrest source

/-- One thing or another may be done before the rest. -/
theorem either {condition : Prop} [Decidable condition] {first second : Parser α}
    {rest : α → Parser β} (hfirst : first.Proceeds text place source)
    (hsecond : second.Proceeds text place source)
    (hrest : ∀ result source, (rest result).Proceeds text place source) :
    (if condition then first >>= fun result => rest result
      else second >>= fun result => rest result).Proceeds text place source := by
  split
  · exact hfirst.bind hrest
  · exact hsecond.bind hrest

/-! ### Reporting -/

theorem reportHere {cause : Cause} : (Parser.reportHere cause).Proceeds text place source :=
  observe .peek (report (.inl (Nat.le_refl _)) (Nat.le_refl _))

theorem refuse {cause : Kind → Cause} :
    (Parser.refuse cause : Parser α).Proceeds text place source :=
  observe .peek (bind (report (.inl (Nat.le_refl _)) (Nat.le_refl _)) fun _ _ => fail)

/-- A token may be reported when it was just read. -/
theorem spannedToken_bind {start? : Option Pos} {next : Token × Span → Parser β}
    (hnext : ∀ span, source.front ≤ source.advance.front →
      (next (source.peek, span)).ProceedsFrom source.front text place source.advance) :
    (Parser.withSpan start? Parser.advance >>= next).Proceeds text place source :=
  bind_of_quiet fun hlies hbefore => by
    have hfront := hbefore.front_le hlies
    obtain rfl := hbefore.unique (.withSpan (.advance source))
    refine ⟨rfl, ?_⟩
    rintro _ ⟨⟩
    exact hnext _ hfront

theorem skipIf {kind : Kind} : (Parser.skipIf kind).Proceeds text place source := by
  refine observe .peekKind ?_
  split
  · exact advance.bind fun _ _ => pure
  · exact pure

theorem expect {kind : Kind} : (Parser.expect kind).Proceeds text place source := by
  refine observe .peekKind ?_
  split
  · exact advance
  · exact refuse

/-! ### Undoing and going on -/

theorem withSpan {start? : Option Pos} {parser : Parser α}
    (h : parser.ProceedsFrom low text place source) :
    (Parser.withSpan start? parser).ProceedsFrom low text place source := by
  intro hlies hlow whole peak hevaluates
  obtain ⟨outcome, _, hinner, rfl⟩ := hevaluates.parts
  exact h hlies hlow hinner

theorem spanned {parser : Parser α} {make : α → Span → β}
    (h : parser.ProceedsFrom low text place source) :
    (Parser.spanned make parser).ProceedsFrom low text place source :=
  h.withSpan.bind fun _ _ => pure

/-- The span of what was read begins at the token that was next. -/
theorem withSpan_bind {parser : Parser α} {next : α × Span → Parser β}
    (h : parser.ProceedsFrom low text place source)
    (hnext : ∀ result span rest, span.start.offset ≤ rest.front →
      (∀ token ∈ text, span.stop.offset ≤ token.span.start.offset →
        rest.front ≤ token.span.start.offset) →
      (next (result, span)).Proceeds text place rest) :
    (Parser.withSpan none parser >>= next).ProceedsFrom low text place source := by
  refine bind_of_evaluates h.withSpan ?_
  intro before peak found hlies hevaluates hfound
  obtain ⟨outcome, _, hinner, rfl⟩ := hevaluates.parts
  obtain ⟨result, -, rfl⟩ := Option.map_eq_some_iff.mp hfound
  exact hnext result _ _ (hinner.front_le hlies) fun token htoken =>
    hinner.front_le_of_stop_le hlies htoken

theorem attempt {inner : Parser α} : inner.attempt.ProceedsFrom low text place source := by
  intro _ _ whole peak hevaluates
  obtain ⟨outcome, _, -, rfl⟩ := hevaluates.parts
  obtain ⟨_, -, hreported, heq⟩ | heq := outcome.attempted_cases source
  · rw [heq, Outcome.withResult?, hreported]
    exact .nil
  · rw [heq]
    exact .nil

theorem settle {inner : Parser α} (h : inner.ProceedsFrom low text place source) :
    inner.settle.ProceedsFrom low text place source := by
  intro hlies hlow whole peak hevaluates
  obtain ⟨outcome, _, hinner, rfl⟩ := hevaluates.parts
  exact h hlies hlow hinner

theorem optional {inner : Parser α} (h : inner.ProceedsFrom low text place source) :
    (Parser.optional inner).ProceedsFrom low text place source := by
  refine h.settle.bind fun settled rest => ?_
  cases settled <;> exact pure

theorem expectOrReport {kind : Kind} : (Parser.expectOrReport kind).Proceeds text place source :=
  expect.optional.bind fun _ _ => pure

/-! ### Loops -/

theorem loop {turn : β → Parser (Step β α)} {init : β}
    (hturn : ∀ state source, (turn state).Proceeds text place source) :
    (Parser.loop init turn).Proceeds text place source := by
  intro hlies hlow outcome peak hevaluates
  -- By induction on the evaluation, in which the rest of a loop is a loop from another state.
  generalize hloop : Parser.loop init turn = parser at hevaluates
  induction hevaluates generalizing init with
  | loopMore hevaluates _ _ hafter _ ih =>
      obtain ⟨⟩ := hloop
      have hrest := hevaluates.liesIn hlies
      exact (hturn _ _ hlies hlow hevaluates).append
        (ih hturn hrest (Nat.le_refl _) rfl) (hevaluates.front_le hlies)
        (hafter.front_le hrest)
  | loopDone hevaluates _ | loopFailed hevaluates _ =>
      obtain ⟨⟩ := hloop
      exact hturn _ _ hlies hlow hevaluates
  | _ => cases hloop

theorem collect {turn : Parser (Turn α)} (hturn : ∀ source, turn.Proceeds text place source) :
    (Parser.collect turn).Proceeds text place source :=
  loop fun _ source => (hturn source).bind fun _ _ => pure

theorem elementOrStop {inner : Parser α} (h : inner.Proceeds text place source) :
    (Parser.elementOrStop inner).Proceeds text place source :=
  h.optional.bind fun _ _ => pure

theorem commaSeparated {close : Kind} {element : Parser (Turn α)}
    (h : ∀ source, element.Proceeds text place source) :
    (Parser.commaSeparated close element).Proceeds text place source := by
  refine collect fun source => observe .peekKind ?_
  split
  · exact pure
  · refine (h source).bind fun taken rest => ?_
    split
    · exact skipIf.bind fun _ _ => pure
    · exact pure

theorem afterEach {mark : Mark} {element : Parser α}
    (h : ∀ source, element.Proceeds text place source) :
    (Parser.afterEach mark element).Proceeds text place source := by
  refine collect fun source => skipIf.bind fun skipped rest => ?_
  split
  · exact (h rest).elementOrStop
  · exact pure

end ProceedsFrom

end Parser

/-- Whatever goal is reached here, what is reported of it comes in turn. -/
class Place.Successive (text : List Token) (place : Place) : Prop where
  proceeds (goal : Goal) {source : TokenStream} : (Parser.nested goal).Proceeds text place source

end DeclFile
