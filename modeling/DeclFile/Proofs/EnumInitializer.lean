import DeclFile.Proofs.Occurrence
import DeclFile.Proofs.Quiet.Basic
import DeclFile.Proofs.Transcript

/-! # Initializers of enumeration members

What follows the equals sign of an enumeration member is its initializer if it is one literal
that ends at a comma or at the closing brace. Anything else is reported and skipped, and the
member then has no initializer.
-/

namespace DeclFile

/-! ## What is recorded -/

/-- The literal is written as these tokens. -/
inductive Literal.WrittenAs : Literal → List Token → Prop where
  | string {token : Token} (h : token.kind = .stringLiteral ∨ token.kind = .templateWhole) :
      WrittenAs (.string token.text) [token]
  | number {token : Token} (h : token.kind = .numberLiteral) :
      WrittenAs (.number token.text) [token]
  | negativeNumber {minus token : Token} (hminus : minus.kind = .mark .minus)
      (h : token.kind = .numberLiteral) : WrittenAs (.number ("-" ++ token.text)) [minus, token]
  | bigint {token : Token} (h : token.kind = .bigintLiteral) :
      WrittenAs (.bigint token.text) [token]
  | negativeBigint {minus token : Token} (hminus : minus.kind = .mark .minus)
      (h : token.kind = .bigintLiteral) : WrittenAs (.bigint ("-" ++ token.text)) [minus, token]
  | true {token : Token} (h : token.kind = .word .true) : WrittenAs (.boolean true) [token]
  | false {token : Token} (h : token.kind = .word .false) : WrittenAs (.boolean false) [token]

/-- The literal stands in front of a comma or a closing brace. -/
def Literal.Initializes (literal : Literal) (tokens : List Token) : Prop :=
  ∃ written next rest, tokens = written ++ next :: rest ∧ literal.WrittenAs written ∧
    (next.kind = .mark .comma ∨ next.kind = .mark .closeBrace)

/-- What is recorded as the initializer of a member with these tokens behind its name. -/
inductive Initialized (diagnostics : List Diagnostic) : List Token → Option Literal → Prop where
  | absent {tokens : List Token} (h : ∀ token ∈ tokens.head?, token.kind ≠ .mark .equals) :
      Initialized diagnostics tokens none
  | literal {equals : Token} {tokens : List Token} {literal : Literal}
      (hequals : equals.kind = .mark .equals) (h : literal.Initializes tokens) :
      Initialized diagnostics (equals :: tokens) (some literal)
  | reported {equals : Token} {tokens : List Token} {span : Span}
      (hequals : equals.kind = .mark .equals) (h : ∀ literal : Literal, ¬literal.Initializes tokens)
      (hspan : ∀ token ∈ tokens.head?, token.span = span)
      (hreported : Cause.enumInitializer.at span ∈ diagnostics) :
      Initialized diagnostics (equals :: tokens) none

/-- The initializer of a member is what stands behind its name in the text. -/
def EnumMember.IsRecorded (transcript : Transcript) (member : EnumMember) : Prop :=
  ∃ name after, name ≠ [] ∧ name ++ after <:+ transcript.tokens ∧
    extent transcript.file name = member.name.outline.span ∧
    Initialized transcript.diagnostics after member.init

/-- What a token is, apart from its place. -/
def Token.symbol (token : Token) : Symbol := ⟨token.kind, token.text⟩

namespace Parser

variable {transcript : Transcript} {place : Place} {source : TokenStream}

/-! ## Literals -/

/-- A token is skipped exactly if it is there and of the kind. -/
theorem skipIf_leads {permits : Diagnostic → Prop} {F : List Token → Prop} {kind : Kind}
    (hkind : kind ≠ .endOfText) (all : List Token) :
    (skipIf kind).Leads permits place source (· = all) F fun skipped tokens =>
      if skipped = true then ∃ token : Token, token.kind = kind ∧ all = token :: tokens
      else all = tokens ∧ ∀ token ∈ all.head?, token.kind ≠ kind := by
  refine .observe .peekKind ?_
  split
  next hnext =>
    refine .advance_bind (M := fun tokens => all = source.peek :: tokens) ?_
      (.pure fun hall => ⟨_, hnext, hall⟩)
    rintro rfl
    exact source.pending_eq_of_peek (hnext ▸ hkind)
  next hnext =>
    refine .pure fun hall => ⟨hall.symm, fun token htoken heq => hnext ?_⟩
    rw [← hall] at htoken
    rw [TokenStream.peek, List.headD_eq_head?_getD, htoken, Option.getD_some, heq]

/-- A literal that was read is written there. -/
theorem literal_leads_writtenAs {permits : Diagnostic → Prop} (all : List Token) :
    literal.Leads permits place source (· = all) (fun _ => True)
      fun found tokens => ∃ written, all = written ++ tokens ∧ found.1.WrittenAs written := by
  refine .bind (skipIf_leads (by simp) all) fun negative rest => ?_
  refine .of_before fun _ hbefore => .advance_bind (M := (· = rest.advance.pending))
    (fun _ => rfl) ?_
  dsimp only
  split
  next value hvalue =>
    refine .pure fun hrest => ?_
    have hpending (hkind : rest.peek.kind ≠ .endOfText) := rest.pending_eq_of_peek hkind
    rw [hrest]
    cases negative with
    | true =>
        obtain ⟨minus, hminus, rfl⟩ := hbefore
        refine ⟨[minus, rest.peek], ?_, ?_⟩
        · rw [hpending fun hend => by simp [hend] at hvalue]
          rfl
        · split at hvalue <;> cases hvalue
          next hkind => exact .negativeNumber hminus hkind
          next hkind => exact .negativeBigint hminus hkind
    | false =>
        obtain rfl : all = rest.pending := hbefore.1
        refine ⟨[rest.peek], hpending fun hend => by simp [hend] at hvalue, ?_⟩
        split at hvalue <;> cases hvalue
        next hkind => exact .number hkind
        next hkind => exact .bigint hkind
        next hkind => exact .string (.inl hkind)
        next hkind => exact .string (.inr hkind)
        next hkind => exact .true hkind
        next hkind => exact .false hkind
  next => exact .fail fun _ => trivial

/-- An initializer that was read stands there, in front of what ends it. -/
theorem enumLiteral_leads {permits : Diagnostic → Prop} (all : List Token) :
    enumLiteral.Leads permits place source (· = all) (fun _ => True)
      fun found _ => found.Initializes all := by
  refine .bind (literal_leads_writtenAs all) fun found rest => ?_
  refine .observe .peekKind ?_
  split
  next hnext =>
    refine .pure fun hfound => ?_
    obtain ⟨written, rfl, hwritten⟩ := hfound
    have hpending : rest.pending = rest.peek :: rest.advance.pending :=
      rest.pending_eq_of_peek (by rintro heq; simp [heq] at hnext)
    exact ⟨written, rest.peek, _, by rw [hpending], hwritten, by simpa using hnext⟩
  next => exact .fail fun _ => trivial

/-- A literal is read as it is written. -/
theorem Gives.literal [Layout] {reach : Reach TokenStream} {literal : Literal}
    {written : List Token} (h : literal.WrittenAs written) :
    Parser.literal.Gives reach (Heads (written.map Token.symbol)) (Heads [])
      fun found => found.1 = literal := by
  have hminus {minus : Token} {more : List Token} (h : minus.kind = .mark .minus) :
      (skipIf (.mark .minus)).Gives reach (Heads ((minus :: more).map Token.symbol))
        (Heads (more.map Token.symbol)) (· = Bool.true) := skipIf_yes h
  have hplain {token : Token} {more : List Token} (h : token.kind ≠ .mark .minus) :
      (skipIf (.mark .minus)).Gives reach (Heads ((token :: more).map Token.symbol))
        (Heads ((token :: more).map Token.symbol)) (· = Bool.false) := skipIf_no h
  cases h with
  | @string token hkind =>
      refine (hplain (by rcases hkind with h | h <;> simp [h])).known <|
        advance.bind fun found hfound => ?_
      have hkind : found.kind = .stringLiteral ∨ found.kind = .templateWhole := hfound.kind ▸ hkind
      have htext : found.text = token.text := hfound.text
      rcases hkind with hkind | hkind
      all_goals
        rw [hkind, htext]
        exact .pure rfl
  | @number token hkind =>
      refine (hplain (by simp [hkind])).known <| advance.bind fun found hfound => ?_
      rw [hfound.kind.trans hkind, show found.text = token.text from hfound.text]
      exact .pure rfl
  | @negativeNumber minus token hsign hkind =>
      refine (hminus hsign).known <| advance.bind fun found hfound => ?_
      rw [hfound.kind.trans hkind, show found.text = token.text from hfound.text]
      exact .pure rfl
  | @bigint token hkind =>
      refine (hplain (by simp [hkind])).known <| advance.bind fun found hfound => ?_
      rw [hfound.kind.trans hkind, show found.text = token.text from hfound.text]
      exact .pure rfl
  | @negativeBigint minus token hsign hkind =>
      refine (hminus hsign).known <| advance.bind fun found hfound => ?_
      rw [hfound.kind.trans hkind, show found.text = token.text from hfound.text]
      exact .pure rfl
  | @true token hkind | @false token hkind =>
      refine (hplain (by simp [hkind])).known <| advance.bind fun found hfound => ?_
      rw [hfound.kind.trans hkind]
      exact .pure rfl

/-- An initializer that stands there is read, without a report. -/
theorem runWith_enumLiteral {literal : Literal} (h : literal.Initializes source.pending)
    (reach : Reach TokenStream) : (enumLiteral.runWith reach source).result? = some literal ∧
      (enumLiteral.runWith reach source).reported = [] := by
  obtain ⟨written, next, rest, hpending, hwritten, hnext⟩ := h
  let _ := Layout.lines { source with pending := next :: rest }
  have hsource : Heads (written.map Token.symbol) source := by
    refine ⟨written, ?_, ?_⟩
    · exact List.forall₂_map_right_iff.mpr (List.forall₂_same.mpr fun _ _ => ⟨rfl, rfl, nofun⟩)
    · cases source
      cases hpending
      rfl
  have hkind : kindAt [] 0 = next.kind := rfl
  have hgives : enumLiteral.Gives reach (Heads (written.map Token.symbol)) (Heads [])
      (· = literal) := by
    refine (Gives.literal hwritten).bind fun found hfound => Gives.peekKind.known ?_
    rw [hkind, if_pos (by simpa using hnext)]
    exact .pure hfound
  obtain ⟨result, lastRead, left, hrun, -, rfl⟩ := hgives source hsource
  rw [hrun]
  exact ⟨rfl, rfl⟩

/-- An attempt to read an initializer has one exactly if one stands there. -/
theorem attempt_enumLiteral {outcome : Outcome TokenStream (Option Literal)} {peak : Nat}
    (hends : source.Ends) (h : Evaluates place (attempt enumLiteral) source outcome peak) :
    (∃ literal, outcome.result? = some (some literal) ∧ literal.Initializes source.pending) ∨
      (outcome = .ofResult none source ∧
        ∀ literal : Literal, ¬literal.Initializes source.pending) := by
  obtain ⟨inner, _, hinner, rfl⟩ := h.parts
  obtain ⟨found, hfound, -, heq⟩ | heq := inner.attempted_cases source
  · have hleads : enumLiteral.Leads (fun _ => True) place source (· = source.pending) (fun _ => True)
        fun found _ => found.Initializes source.pending := enumLiteral_leads source.pending
    have hinitializes := hleads hends rfl hinner fun _ _ => trivial
    rw [hfound] at hinitializes
    exact .inl ⟨found, by rw [heq]; rfl, hinitializes⟩
  · refine .inr ⟨heq, fun literal hliteral => ?_⟩
    obtain ⟨hresult, hreported⟩ := runWith_enumLiteral hliteral place.reach
    rw [hinner.runWith_eq] at hresult hreported
    rw [Outcome.attempted, hresult, hreported] at heq
    exact absurd (congrArg Outcome.result? heq) (by simp [Outcome.withResult?, Outcome.ofResult])

/-! ## Members -/

/-- Behind an equals sign stands an initializer, or else there is none and that is reported. -/
theorem enumInitializer_leads {equals : Token} (hequals : equals.kind = .mark .equals)
    (after : List Token) :
    enumInitializer.Leads (· ∈ transcript.diagnostics) place source (· = after) (fun _ => True)
      fun init _ => Initialized transcript.diagnostics (equals :: after) init := by
  refine .bind_of_evaluates ?_
  rintro hends rfl before peak hbefore -
  obtain ⟨literal, hresult, hliteral⟩ | ⟨rfl, hnone⟩ := attempt_enumLiteral hends hbefore
  · rw [hresult]
    exact ⟨fun _ => True, trivial, .pure fun _ => .literal hequals hliteral⟩
  · refine ⟨fun _ => True, trivial, .reportHere_bind fun hreported => ?_⟩
    refine .bind (Q := fun _ _ => True) ?_ fun _ _ => .pure fun _ => ?_
    · intro _ _ outcome peak _ _
      split <;> trivial
    · refine .reported hequals hnone (fun token htoken => ?_) hreported
      rw [Outcome.ofResult, TokenStream.peek, List.headD_eq_head?_getD, htoken]
      rfl

/-- The span of a name stretches over what was read of it. -/
theorem propertyName_reads {outcome : Outcome TokenStream PropertyName} {peak : Nat}
    {name : PropertyName} (hends : source.Ends)
    (h : Evaluates place propertyName source outcome peak) (hname : outcome.result? = some name) :
    ∃ read, source.pending = read ++ outcome.rest.pending ∧
      Spans place.file read name.outline.span := by
  let setting : Setting := ⟨{ place with entry := source.pending.length }, source.tokens⟩
  have hadmits : setting.Admits source := ⟨hends, Nat.le_refl _, List.suffix_rfl⟩
  have hmeets : propertyName.Meets ⟨False, place.file⟩ setting source _ _ := propertyName_meets
  obtain ⟨-, read, hreads, hyields⟩ := hmeets rfl hadmits False.elim
  have hrun : propertyName.runWith setting.reach source = outcome := h.runWith_eq
  rw [hrun] at hreads hyields
  have hover := (Outcome.yields_of_some name hname).mp hyields
  exact ⟨read, hreads.follows.pending, hover.spans⟩

theorem enumMember_shows (hfile : place.file = transcript.file) :
    enumMember.Shows transcript place source (EnumMember.IsRecorded transcript) := by
  refine .spanned <| .of_leads (F := fun _ => True) <| .bind_of_evaluates ?_
  intro hends hsuffix before peak hbefore _
  cases hname : before.result? with
  | none => trivial
  | some name =>
      obtain ⟨read, hpending, hspans⟩ := propertyName_reads hends hbefore hname
      rw [hpending] at hsuffix
      have horder : TokensInOrder transcript.file read := transcript.inOrder.sublist <|
        (List.sublist_append_left _ _).trans hsuffix.sublist
      have hspan := horder.spans_eq (hfile ▸ hspans)
      have hrecorded (init : Option Literal) (span : Span)
          (hinit : Initialized transcript.diagnostics before.rest.pending init) :
          (EnumMember.mk name init span).IsRecorded transcript :=
        ⟨read, before.rest.pending, hspans.ne_nil, hsuffix, hspan.symm, hinit⟩
      refine ⟨(· = before.rest.pending), rfl, .bind (skipIf_leads (by simp) _)
        fun skipped rest => ?_⟩
      refine .of_before fun _ hskipped => .either
        (Q := fun init _ => Initialized transcript.diagnostics before.rest.pending init)
        (fun heq => ?_) (fun heq => ?_)
        fun init _ => .pure fun hinit span => hrecorded init span hinit
      · rw [if_pos heq] at hskipped
        obtain ⟨equals, hequals, hafter⟩ := hskipped
        rw [hafter]
        exact (enumInitializer_leads hequals rest.pending).pre fun _ => rfl
      · rw [if_neg heq] at hskipped
        exact .pure fun _ => .absent hskipped.2

theorem enumMember?_shows (hfile : place.file = transcript.file) :
    enumMember?.Shows transcript place source fun found =>
      ∀ member ∈ found, member.IsRecorded transcript := by
  refine .settle_bind (enumMember_shows hfile) (fun member _ hmember => .pure ?_)
    fun progress _ => ?_
  · rintro _ ⟨⟩
    exact hmember
  · cases progress
    · exact .skip fun _ _ => .skip fun _ _ => .pure nofun
    · exact .skip fun _ _ => .pure nofun

theorem enumDecl_shows (hfile : place.file = transcript.file) (isConst : Bool) :
    (enumDecl isConst).Shows transcript place source fun decl =>
      ∀ member ∈ decl.members, member.IsRecorded transcript := by
  refine .skip fun _ _ => .skip fun _ _ => .bind (Q := fun members : List EnumMember =>
    ∀ member ∈ members, member.IsRecorded transcript) ?_ fun members _ hmembers => .pure hmembers
  refine .skip fun _ _ => .bind (.commaSeparated fun _ => ?_) fun members _ hmembers =>
    .skip fun _ _ => .pure hmembers
  exact (enumMember?_shows hfile).bind fun found _ hfound => .pure hfound

end Parser

end DeclFile
