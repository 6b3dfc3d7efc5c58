import DeclFile.Proofs.Brackets.File
import DeclFile.Proofs.Enclosure.Member
import DeclFile.Proofs.Independence

/-! # Errors in a body stay in the body

In a body whose brackets are properly nested, what is left of it is properly nested too, but for
brackets that a broken construct has opened and left. None of those is a brace, so the next
closing brace that does not close a group is that of the body. This is what reading members keeps,
unless one is given up at an opening brace.
-/

namespace DeclFile

open DeclFile.Parser (opensGroup closesGroup)

/-! ## Proper nesting -/

theorem opensGroup_eq (kind : Kind) : opensGroup kind = (closer? kind).isSome := by
  unfold opensGroup closer?
  split <;> simp_all

/-- The first of properly nested tokens opens a group, closes the innermost one or is no
bracket. -/
theorem properlyNested_cases {awaited : List Mark} {token : Token} {rest : List Token}
    (h : properlyNested awaited (token :: rest) = true) :
    (∃ mark, closer? token.kind = some mark ∧ properlyNested (mark :: awaited) rest = true) ∨
    (closer? token.kind = none ∧ closesGroup token.kind = true ∧ ∃ mark others,
      awaited = mark :: others ∧ token.kind = .mark mark ∧ properlyNested others rest = true) ∨
    (closer? token.kind = none ∧ closesGroup token.kind = false ∧
      properlyNested awaited rest = true) := by
  simp only [properlyNested] at h
  split at h
  next mark hopens => exact .inl ⟨mark, hopens, h⟩
  next hopens =>
    split at h
    next hcloses =>
      split at h
      next mark others =>
        simp only [Bool.and_eq_true, beq_iff_eq] at h
        exact .inr (.inl ⟨hopens, hcloses, mark, others, rfl, h.1, h.2⟩)
      next => cases h
    next hcloses => exact .inr (.inr ⟨hopens, by simpa using hcloses, h⟩)

/-- What is inside of a group is followed by the bracket that closes it. -/
theorem exists_closing_of_properlyNested {mark : Mark} {awaited extra : List Mark}
    {tokens : List Token} (h : properlyNested (extra ++ mark :: awaited) tokens = true) :
    ∃ inside closing rest, tokens = inside ++ closing :: rest ∧
      closing.kind = .mark mark ∧ closesGroup closing.kind = true ∧
      properlyNested extra inside = true ∧ properlyNested awaited rest = true := by
  -- By induction on the tokens, where `extra` is what must be closed before.
  induction tokens generalizing extra with
  | nil => cases extra <;> cases h
  | cons token tokens ih =>
      obtain ⟨opened, hopens, h⟩ | ⟨hopens, hcloses, other, others, heq, hkind, h⟩ |
        ⟨hopens, hcloses, h⟩ := properlyNested_cases h
      · have hnested : properlyNested ((opened :: extra) ++ mark :: awaited) tokens = true := h
        obtain ⟨inside, closing, rest, rfl, hclosing, hcloses, hinside, hrest⟩ := ih hnested
        refine ⟨token :: inside, closing, rest, rfl, hclosing, hcloses, ?_, hrest⟩
        simpa [properlyNested, hopens] using hinside
      · cases extra with
        | nil =>
            obtain ⟨rfl, rfl⟩ := List.cons.inj heq
            exact ⟨[], token, tokens, rfl, hkind, hcloses, rfl, h⟩
        | cons first extra =>
            obtain ⟨rfl, rfl⟩ := List.cons.inj heq
            obtain ⟨inside, closing, rest, rfl, hclosing, hcloses', hinside, hrest⟩ := ih h
            refine ⟨token :: inside, closing, rest, rfl, hclosing, hcloses', ?_, hrest⟩
            rw [hkind] at hopens hcloses
            simpa [properlyNested, hkind, hopens, hcloses] using hinside
      · obtain ⟨inside, closing, rest, rfl, hclosing, hcloses', hinside, hrest⟩ := ih h
        refine ⟨token :: inside, closing, rest, rfl, hclosing, hcloses', ?_, hrest⟩
        simpa [properlyNested, hopens, hcloses] using hinside

/-- Counting the brackets of a group comes to an end with the bracket that closes it. -/
theorem afterGroup_of_properlyNested {extra : List Mark} {inside rest : List Token}
    {closing : Token} (h : properlyNested extra inside = true)
    (hclosing : closesGroup closing.kind = true) :
    afterGroup (extra.length + 1) (inside ++ closing :: rest) = some rest := by
  induction inside generalizing extra with
  | nil =>
      obtain rfl := List.isEmpty_iff.mp h
      simp [afterGroup, depthAfter, opensGroup_eq, closer?_of_closesGroup hclosing, hclosing]
  | cons token inside ih =>
      rw [List.cons_append, afterGroup]
      obtain ⟨opened, hopens, h⟩ | ⟨hopens, hcloses, _, others, rfl, -, h⟩ |
        ⟨hopens, hcloses, h⟩ := properlyNested_cases h
      · simpa [depthAfter, opensGroup_eq, hopens] using ih h
      · simpa [depthAfter, opensGroup_eq, hopens, hcloses] using ih h
      · simpa [depthAfter, opensGroup_eq, hopens, hcloses] using ih h

/-! ## What is left of a body -/

/-- The tokens begin in a body with properly nested brackets, perhaps behind brackets that are no
braces and still open; `after` is what follows the closing brace of the body. -/
def InBody (after tokens : List Token) : Prop :=
  ∃ body closing awaited, tokens = body ++ closing :: after ∧ closing.kind = .mark .closeBrace ∧
    properlyNested awaited body = true ∧ .closeBrace ∉ awaited ∧
    ∀ token ∈ body, token.kind ≠ .endOfText

namespace InBody

variable {token : Token} {after rest : List Token}

/-- The closing brace that is next is that of the body. -/
theorem eq_after (h : InBody after (token :: rest)) (hkind : token.kind = .mark .closeBrace) :
    rest = after := by
  obtain ⟨body, closing, awaited, heq, hclosing, hnested, hawaited, -⟩ := h
  cases body with
  | nil => exact (List.cons.inj heq).2
  | cons first body =>
      obtain ⟨rfl, -⟩ := List.cons.inj heq
      -- A closing brace in the body would have been awaited.
      cases awaited with
      | nil => simp [properlyNested, hkind, closer?, closesGroup] at hnested
      | cons mark awaited =>
          simp only [properlyNested, hkind, closer?, closesGroup, if_true, Bool.and_eq_true,
            beq_iff_eq, Kind.mark.injEq] at hnested
          exact absurd (hnested.1 ▸ List.mem_cons_self) hawaited

/-- What is next is the closing brace or belongs to the body. -/
theorem of_ne_closing (h : InBody after (token :: rest)) (hkind : token.kind ≠ .mark .closeBrace) :
    ∃ body closing awaited, rest = body ++ closing :: after ∧
      closing.kind = .mark .closeBrace ∧ properlyNested awaited (token :: body) = true ∧
      .closeBrace ∉ awaited ∧ ∀ token ∈ body, token.kind ≠ .endOfText := by
  obtain ⟨body, closing, awaited, heq, hclosing, hnested, hawaited, hends⟩ := h
  cases body with
  | nil =>
      obtain ⟨rfl, -⟩ := List.cons.inj heq
      exact absurd hclosing hkind
  | cons first body =>
      obtain ⟨rfl, rfl⟩ := List.cons.inj heq
      exact ⟨body, closing, awaited, rfl, hclosing, hnested, hawaited,
        fun token htoken => hends token (.tail _ htoken)⟩

/-- A token that is no brace may be read by itself. -/
theorem tail (h : InBody after (token :: rest)) (hopen : token.kind ≠ .mark .openBrace)
    (hclose : token.kind ≠ .mark .closeBrace) : InBody after rest := by
  obtain ⟨body, closing, awaited, rfl, hclosing, hnested, hawaited, hends⟩ :=
    h.of_ne_closing hclose
  obtain ⟨mark, hopens, hnested⟩ | ⟨-, -, mark, others, rfl, -, hnested⟩ | ⟨-, -, hnested⟩ :=
    properlyNested_cases hnested
  · refine ⟨body, closing, mark :: awaited, rfl, hclosing, hnested, ?_, hends⟩
    rw [List.mem_cons, not_or]
    refine ⟨?_, hawaited⟩
    rintro rfl
    -- Only an opening brace makes a closing one awaited.
    unfold closer? at hopens
    split at hopens
    next hbrace => exact hopen hbrace
    all_goals cases hopens
  · exact ⟨body, closing, others, rfl, hclosing, hnested,
      fun hmem => hawaited (.tail _ hmem), hends⟩
  · exact ⟨body, closing, awaited, rfl, hclosing, hnested, hawaited, hends⟩

/-- A group in the body ends there. -/
theorem exists_group (h : InBody after (token :: rest)) {mark : Mark}
    (hopens : closer? token.kind = some mark) :
    ∃ inside closing left, rest = inside ++ closing :: left ∧ closing.kind = .mark mark ∧
      closesGroup closing.kind = true ∧ properlyNested [] inside = true ∧
      (∀ token ∈ inside, token.kind ≠ .endOfText) ∧ InBody after left := by
  have hkind : token.kind ≠ .mark .closeBrace := by
    intro heq
    rw [heq] at hopens
    cases hopens
  obtain ⟨body, last, awaited, rfl, hlast, hnested, hawaited, hends⟩ := h.of_ne_closing hkind
  simp only [properlyNested, hopens] at hnested
  have hbody : properlyNested ([] ++ mark :: awaited) body = true := hnested
  obtain ⟨inside, closing, left, rfl, hclosing, hcloses, hinside, hleft⟩ :=
    exists_closing_of_properlyNested hbody
  refine ⟨inside, closing, left ++ last :: after, by simp, hclosing, hcloses, hinside,
    fun token htoken => hends token (by simp [htoken]), ?_⟩
  exact ⟨left, last, awaited, rfl, hlast, hleft, hawaited,
    fun token htoken => hends token (by simp [htoken])⟩

end InBody

/-- A member was given up right at an opening brace. -/
def Diagnostic.losesBrace (diagnostic : Diagnostic) : Bool :=
  diagnostic == (Cause.missingPropertyName (.mark .openBrace)).at diagnostic.span ||
    diagnostic == (Cause.missingMemberEnd (.mark .openBrace)).at diagnostic.span

/-- A body is a stretch, and so are those inside of it; each is told by what comes after it. -/
def Enclosure.body : Enclosure where
  Home := List Token
  Holds := InBody
  Permits diagnostic := diagnostic.losesBrace = false
  Grouped := True
  next := by
    rintro after tokens ⟨body, closing, awaited, rfl, hclosing, -, -, hends⟩
    cases body with
    | nil => exact ⟨closing, after, rfl, by simp [hclosing]⟩
    | cons token body => exact ⟨token, body ++ closing :: after, rfl, hends _ (.head _)⟩
  common := by
    intro after token rest h hkind
    simp only [Kind.isCommon, Bool.and_eq_true, bne_iff_ne] at hkind
    exact h.tail hkind.1.1 hkind.1.2
  resumes := by
    intro after token rest h hkind
    exact .inl ⟨trivial, h.tail (by simp [hkind]) (by simp [hkind])⟩
  segment := by
    intro after name dot word rest _ hdot _ hdotKind hwordKind
    have hword : InBody after (word :: rest) := hdot.tail (by simp [hdotKind]) (by simp [hdotKind])
    refine ⟨hword, hword.tail ?_ ?_⟩ <;> intro heq <;> rw [heq] at hwordKind <;> cases hwordKind
  opening _ _ := trivial
  group := by
    intro after token rest h hkind
    rw [opensGroup_eq, Option.isSome_iff_exists] at hkind
    obtain ⟨mark, hopens⟩ := hkind
    obtain ⟨inside, closing, left, rfl, -, hcloses, hinside, -, hleft⟩ := h.exists_group hopens
    refine ⟨left, ?_, hleft⟩
    simpa [afterGroup, depthAfter, opensGroup_eq, hopens] using
      afterGroup_of_properlyNested hinside hcloses
  brace := by
    intro after token rest h hkind
    have hopens : closer? token.kind = some .closeBrace := hkind ▸ rfl
    obtain ⟨inside, closing, left, rfl, hclosing, -, hinside, hends, hleft⟩ :=
      h.exists_group hopens
    refine ⟨left, ⟨inside, closing, [], rfl, hclosing, hinside, by simp, hends⟩, ?_⟩
    intro closing' left' hclosing' hinner
    rwa [hinner.eq_after hclosing']

theorem Enclosure.body_keepsMembers : Enclosure.body.KeepsMembers where
  grouped := trivial
  name span := by simp [body, Diagnostic.losesBrace, Cause.at]
  ending span := by simp [body, Diagnostic.losesBrace, Cause.at]

instance Place.outset_encloses_body (limits : Limits) (tokens : TokenStream) (file : SourceId) :
    (Place.outset limits tokens file).Encloses .body :=
  Place.encloses (fun _ => Enclosure.body_keepsMembers) _ rfl

/-! ## Declarations with a body -/

theorem TokenStream.peek_advance_of_pending {source : TokenStream} {token : Token}
    {rest : List Token} (h : source.pending = token :: rest) :
    source.peek = token ∧ source.advance.pending = rest := by
  simp [peek, advance, h]

namespace Parser

variable {α β : Type} {permits : Diagnostic → Prop} {place : Place} {source : TokenStream}
  {P F : List Token → Prop} {R : β → List Token → Prop} {name opening : Token}
  {after rest : List Token}

theorem skipIf_observes {kind : Kind} (h : source.peek.kind ≠ kind) :
    Observes (skipIf kind) source false := by
  refine .bind .peekKind ?_
  rw [if_neg h]
  exact .pure false

theorem typeParams_observes (h : source.peek.kind ≠ .mark .openAngle) :
    Observes typeParams source [] :=
  .bind (skipIf_observes h) (.pure [])

namespace Leads

/-- A token is read that is known to be next. -/
theorem token_bind {token : Token} {next : Token → Parser β}
    (h : ∀ source, (next token).Leads permits place source (· = rest) F R) :
    (Parser.advance >>= next).Leads permits place source (· = token :: rest) F R := by
  refine of_before fun _ hpending => ?_
  obtain ⟨hpeek, hadvance⟩ := TokenStream.peek_advance_of_pending hpending
  exact advance_bind (fun _ => hadvance) (hpeek ▸ h _)

/-- It is known what the first part comes to and what it leaves. -/
theorem bind_of_eq {first : Parser α} {next : α → Parser β} {value : α}
    (hfirst : first.Leads permits place source P F
      fun found tokens => found = value ∧ tokens = rest)
    (hnext : ∀ source, (next value).Leads permits place source (· = rest) F R) :
    (first >>= next).Leads permits place source P F R := by
  refine .bind hfirst fun found source => .of_before fun _ ⟨hfound, _⟩ => ?_
  subst hfound
  exact (hnext source).pre And.right

theorem ident (hname : name.kind.isBindingName = true) :
    Parser.ident.Leads permits place source (· = name :: rest) F
      fun found tokens => found = ⟨name.text, name.span⟩ ∧ tokens = rest := by
  refine of_before fun _ hpending => .observe .peekKind ?_
  rw [(TokenStream.peek_advance_of_pending hpending).1, if_pos hname]
  exact token_bind fun _ => .pure fun heq => ⟨rfl, heq⟩

/-- The span that is added goes from the first token to the last before those that are left. -/
theorem spanned_between {parser : Parser α} {make : α → Span → β} {first last : Token}
    {front left : List Token} {result : α → Prop}
    (h : source.peek = first →
      parser.Leads permits place source (· = (first :: front) ++ last :: left) F
        fun found tokens => tokens = left ∧ result found) :
    (Parser.spanned make parser).Leads permits place source
      (· = (first :: front) ++ last :: left) F
      fun made tokens => tokens = left ∧ ∃ found, result found ∧
        made = make found (.between place.file first.span.start last.span.stop) := by
  refine of_before fun _ hpending => ?_
  obtain ⟨rfl, -⟩ := TokenStream.peek_advance_of_pending hpending
  refine .bind (Q := fun found tokens => tokens = left ∧ result found.1 ∧
    found.2 = .between place.file source.peek.span.start last.span.stop) ?_
    fun found _ => .pure fun ⟨hleft, hfound⟩ => ?_
  · intro hends hpending whole peak hevaluates hpermits
    obtain ⟨outcome, _, hinner, rfl⟩ := hevaluates.parts
    have hresult := h rfl hends hpending hinner hpermits
    simp only [Outcome.spannedFrom, Outcome.withResult?]
    cases hfound : outcome.result? with
    | none => simpa [hfound] using hresult
    | some found =>
        rw [hfound] at hresult
        obtain ⟨hleft, hresult⟩ := hresult
        obtain ⟨read, hread, hlast⟩ := hinner.reads hends
        rw [hpending, hleft, List.append_cons, List.append_left_inj] at hread
        rw [← hread, List.getLast?_concat] at hlast
        refine ⟨hleft, hresult, ?_⟩
        simp [Outcome.spanFrom, hlast]
  · exact ⟨hleft, found.1, hfound.1, by rw [hfound.2]⟩

end Leads

/-- A body in braces is read up to the brace that closes it. -/
theorem braced_leads {body : Parser α} (hopening : opening.kind = .mark .openBrace)
    (hrest : InBody after rest)
    (hbody : ∀ source, body.Leads Enclosure.body.Permits place source (InBody after)
      (fun _ => False) fun _ => Enclosure.body.Closes after) :
    (braced body).Leads Enclosure.body.Permits place source (· = opening :: rest)
      (fun _ => False) fun _ tokens => tokens = after := by
  refine .bind (Q := fun _ tokens => tokens = rest) ?_ fun _ source => ?_
  · refine .of_before fun _ hpending => .observe .peekKind ?_
    obtain ⟨hpeek, hadvance⟩ := TokenStream.peek_advance_of_pending hpending
    rw [hpeek, if_pos hopening]
    exact .advance fun _ => hadvance
  · refine .bind ((hbody source).pre fun heq => heq ▸ hrest)
      fun found _ => .bind (Q := fun _ tokens => tokens = after)
        (.expectOrReport_closing fun closing left hclosing hholds => ?_) fun _ _ => .pure id
    exact InBody.eq_after hholds hclosing

section

variable [place.Encloses .body]

theorem interfaceDecl_leads {word : Token} (hname : name.kind.isBindingName = true)
    (hopening : opening.kind = .mark .openBrace) (hrest : InBody after rest) :
    interfaceDecl.Leads Enclosure.body.Permits place source
      (· = word :: name :: opening :: rest) (fun _ => False)
      fun found tokens => tokens = after ∧
        ∃ members, found = ⟨⟨name.text, name.span⟩, [], [], members⟩ := by
  refine .token_bind fun _ => .bind_of_eq (.ident hname) fun source =>
    .of_before fun _ hpending => ?_
  have hpeek : source.peek.kind = .mark .openBrace :=
    (TokenStream.peek_advance_of_pending hpending).1 ▸ hopening
  refine .observe (typeParams_observes (by simp [hpeek])) <|
    .observe (skipIf_observes (by simp [hpeek])) <| .observe (.pure []) ?_
  refine .bind (braced_leads hopening hrest fun _ => ?_)
    fun members _ => .pure fun hleft => ⟨hleft, members, rfl⟩
  exact Place.Encloses.members trivial

theorem classDecl_leads {word : Token} (hname : name.kind.isBindingName = true)
    (hopening : opening.kind = .mark .openBrace) (hrest : InBody after rest) :
    (classDecl false false).Leads Enclosure.body.Permits place source
      (· = word :: name :: opening :: rest) (fun _ => False)
      fun found tokens => tokens = after ∧ ∃ members,
        found = ⟨some ⟨name.text, name.span⟩, false, [], none, [], members⟩ := by
  refine .token_bind fun _ => .observe .peekKind ?_
  rw [if_pos (by simp)]
  have hsome {source : TokenStream} : (some <$> ident).Leads Enclosure.body.Permits place source
      (· = name :: opening :: rest) (fun _ => False)
      fun found tokens => found = some ⟨name.text, name.span⟩ ∧ tokens = opening :: rest :=
    .map ((Leads.ident hname).post fun _ _ => And.imp_left (congrArg some))
  refine .bind_of_eq hsome fun source => .of_before fun _ hpending => ?_
  have hpeek : source.peek.kind = .mark .openBrace :=
    (TokenStream.peek_advance_of_pending hpending).1 ▸ hopening
  refine .observe (typeParams_observes (by simp [hpeek])) <|
    .observe (skipIf_observes (by simp [hpeek])) <| .observe (.pure none) <|
    .observe (skipIf_observes (by simp [hpeek])) <| .observe (.pure []) ?_
  refine .bind (braced_leads hopening hrest fun _ => ?_)
    fun members _ => .pure fun hleft => ⟨hleft, members, rfl⟩
  exact Place.Encloses.classMembers trivial

theorem interfaceStatement_leads {word closing : Token} {body : List Token}
    (hword : word.kind = .word .interface) (hname : name.kind.isBindingName = true)
    (hopening : opening.kind = .mark .openBrace) (hrest : InBody after (body ++ closing :: after)) :
    (statement false).Leads Enclosure.body.Permits place source
      (· = (word :: name :: opening :: body) ++ closing :: after) (fun _ => False)
      fun found tokens => tokens = after ∧ ∃ members, found =
        ⟨.interface ⟨⟨name.text, name.span⟩, [], [], members⟩,
          .between place.file word.span.start closing.span.stop⟩ := by
  refine .of_before fun _ hpending => ?_
  obtain ⟨hpeek, -⟩ := TokenStream.peek_advance_of_pending hpending
  have hkind : (declarationKind false false).Leads Enclosure.body.Permits place source
      (· = (word :: name :: opening :: body) ++ closing :: after) (fun _ => False)
      fun found tokens => tokens = after ∧
        ∃ members, found = .interface ⟨⟨name.text, name.span⟩, [], [], members⟩ := by
    refine .observe .peekKind <| .observe (.kindAhead 1) ?_
    rw [hpeek, hword]
    refine .bind (interfaceDecl_leads hname hopening hrest) fun found _ => .pure ?_
    rintro ⟨hleft, members, rfl⟩
    exact ⟨hleft, members, rfl⟩
  refine .observe .peekKind <| .observe (.kindAhead 1) ?_
  rw [hpeek, hword]
  refine (Leads.spanned_between fun _ => hkind).post ?_
  rintro found tokens ⟨hleft, kind, ⟨members, rfl⟩, rfl⟩
  exact ⟨hleft, members, rfl⟩

theorem classStatement_leads {declare word closing : Token} {body : List Token}
    (hdeclare : declare.kind = .word .declare) (hword : word.kind = .word .class)
    (hname : name.kind.isBindingName = true) (hopening : opening.kind = .mark .openBrace)
    (hrest : InBody after (body ++ closing :: after)) :
    (statement false).Leads Enclosure.body.Permits place source
      (· = (declare :: word :: name :: opening :: body) ++ closing :: after) (fun _ => False)
      fun found tokens => tokens = after ∧ ∃ members, found =
        ⟨.ambient ⟨.class ⟨some ⟨name.text, name.span⟩, false, [], none, [], members⟩,
          .between place.file word.span.start closing.span.stop⟩,
          .between place.file declare.span.start closing.span.stop⟩ := by
  refine .of_before fun _ hpending => ?_
  obtain ⟨hpeek, -⟩ := TokenStream.peek_advance_of_pending hpending
  have hkind {source : TokenStream} (hpeek : source.peek = word) :
      (declarationKind true false).Leads Enclosure.body.Permits place source
        (· = (word :: name :: opening :: body) ++ closing :: after) (fun _ => False)
        fun found tokens => tokens = after ∧ ∃ members,
          found = .class ⟨some ⟨name.text, name.span⟩, false, [], none, [], members⟩ := by
    refine .observe .peekKind <| .observe (.kindAhead 1) ?_
    rw [hpeek, hword]
    refine .observe (.pure ()) <| .bind (classDecl_leads hname hopening hrest)
      fun found _ => .pure ?_
    rintro ⟨hleft, members, rfl⟩
    exact ⟨hleft, members, rfl⟩
  have hinner {source : TokenStream} :
      (declaration true false).Leads Enclosure.body.Permits place source
        (· = (word :: name :: opening :: body) ++ closing :: after) (fun _ => False)
        fun found tokens => tokens = after ∧ ∃ members, found =
          ⟨.class ⟨some ⟨name.text, name.span⟩, false, [], none, [], members⟩,
            .between place.file word.span.start closing.span.stop⟩ := by
    refine (Leads.spanned_between hkind).post ?_
    rintro found tokens ⟨hleft, kind, ⟨members, rfl⟩, rfl⟩
    exact ⟨hleft, members, rfl⟩
  refine .observe .peekKind <| .observe (.kindAhead 1) ?_
  rw [hpeek, hdeclare]
  refine (Leads.spanned_between fun _ => .token_bind fun _ => hinner).post ?_
  rintro found tokens ⟨hleft, inner, ⟨members, rfl⟩, rfl⟩
  exact ⟨hleft, members, rfl⟩

omit [place.Encloses .body] in
/-- A statement that does not fail is the result of its turn. -/
theorem statementTurn_leads {ambient : Bool} {close : Kind} {Q : Statement → List Token → Prop}
    (hclose : source.peek.kind ≠ close) (hend : source.peek.kind ≠ .endOfText)
    (hsemicolon : source.peek.kind ≠ .mark .semicolon)
    (h : (statement ambient).Leads permits place source P (fun _ => False) Q) :
    (statementTurn ambient close).Leads permits place source P F
      fun taken tokens => ∃ found, taken = ⟨some found, true⟩ ∧ Q found tokens := by
  refine .observe .peekKind ?_
  rw [if_neg (by simp [hclose, hend]), if_neg hsemicolon]
  exact .settle_bind h (fun found _ => .pure fun hfound => ⟨found, rfl, hfound⟩)
    fun _ _ => .never And.left

end

end Parser

/-- A turn of which it is known where it leads gives the first statement of the file, and the
others are those of the rest. -/
theorem parseTokens_of_turn {permits : Diagnostic → Prop} {tokens : TokenStream}
    {limits : Limits} {result : Statement → Prop} {before after : List Token}
    (source : SourceId) (hends : tokens.Ends) (hfits : tokens.size ≤ limits.maxTokens)
    (hpermits : ∀ diagnostic ∈ (turnOutcome limits tokens source).reported, permits diagnostic)
    (hpending : tokens.pending = before)
    (hturn : (Parser.statementTurn false .endOfText).Leads permits
      (.outset limits tokens source) tokens (· = before) (fun _ => False)
      fun taken left => ∃ found, taken = ⟨some found, true⟩ ∧ left = after ∧ result found) :
    ∃ found, result found ∧ (parseTokens tokens source limits).module.statements =
      found :: (parseTokens { tokens with pending := after } source limits).module.statements := by
  obtain ⟨⟨_, hevaluates⟩, -⟩ := turnOutcome_evaluates limits source hends
  have hleads := hturn hends hpending hevaluates hpermits
  split at hleads
  next taken hresult =>
    obtain ⟨found, rfl, hleft, hfound⟩ := hleads
    refine ⟨found, hfound, ?_⟩
    obtain ⟨count, hrest⟩ := (grammar limits.maxDepth).run_rest source limits.maxDepth
      (Parser.statementTurn false .endOfText) tokens
    change (turnOutcome limits tokens source).rest = _ at hrest
    have hrest' : (turnOutcome limits tokens source).rest = { tokens with pending := after } := by
      rw [hrest] at hleft ⊢
      rw [← hleft]
      rfl
    have hlater := @parseTokens_statements limits { tokens with pending := after } source hfits
    rw [parseTokens_statements source hfits, statements_of_turn hends hresult, hrest', hlater]
    rfl
  next => exact hleads.elim

/-- Errors in a body with properly nested brackets stay in the body. The interface or class ends
with the brace that closes its body, whatever its members are and however low the limit on
nesting, and what follows is read as if it stood alone, unless a member is given up right at an
opening brace. -/
theorem errors_stay_in_body {name opening closing : Token} {body after : List Token}
    {tokens : TokenStream} {limits : Limits} (source : SourceId)
    (hname : name.kind.isBindingName = true) (hopening : opening.kind = .mark .openBrace)
    (hclosing : closing.kind = .mark .closeBrace) (hbody : properlyNested [] body = true)
    (hends : tokens.Ends) (hfits : tokens.size ≤ limits.maxTokens)
    (hkept : ∀ diagnostic ∈ (turnOutcome limits tokens source).reported,
      diagnostic.losesBrace = false) :
    (∀ word, word.kind = .word .interface →
      tokens.pending = word :: name :: opening :: body ++ closing :: after →
      ∃ members, (parseTokens tokens source limits).module.statements =
        ⟨.interface ⟨⟨name.text, name.span⟩, [], [], members⟩,
          .between source word.span.start closing.span.stop⟩ ::
          (parseTokens { tokens with pending := after } source limits).module.statements) ∧
    (∀ declare word, declare.kind = .word .declare → word.kind = .word .class →
      tokens.pending = declare :: word :: name :: opening :: body ++ closing :: after →
      ∃ members, (parseTokens tokens source limits).module.statements =
        ⟨.ambient ⟨.class ⟨some ⟨name.text, name.span⟩, false, [], none, [], members⟩,
          .between source word.span.start closing.span.stop⟩,
          .between source declare.span.start closing.span.stop⟩ ::
          (parseTokens { tokens with pending := after } source limits).module.statements) := by
  have hrest {heading : List Token} (hpending : tokens.pending = heading ++ closing :: after)
      (hheading : body <:+ heading) : InBody after (body ++ closing :: after) := by
    refine ⟨body, closing, [], rfl, hclosing, hbody, by simp, fun token htoken => hends token ?_⟩
    rw [hpending]
    exact List.mem_append_left _ (hheading.subset htoken)
  constructor
  · intro word hword hpending
    obtain ⟨hpeek, -⟩ := TokenStream.peek_advance_of_pending hpending
    obtain ⟨_, ⟨members, rfl⟩, heq⟩ := parseTokens_of_turn source hends hfits hkept hpending <|
      Parser.statementTurn_leads (by simp [hpeek, hword]) (by simp [hpeek, hword])
        (by simp [hpeek, hword]) <|
        Parser.interfaceStatement_leads hword hname hopening (hrest hpending ⟨[_, _, _], rfl⟩)
    exact ⟨members, heq⟩
  · intro declare word hdeclare hword hpending
    obtain ⟨hpeek, -⟩ := TokenStream.peek_advance_of_pending hpending
    obtain ⟨_, ⟨members, rfl⟩, heq⟩ := parseTokens_of_turn source hends hfits hkept hpending <|
      Parser.statementTurn_leads (by simp [hpeek, hdeclare]) (by simp [hpeek, hdeclare])
        (by simp [hpeek, hdeclare]) <|
        Parser.classStatement_leads hdeclare hword hname hopening
          (hrest hpending ⟨[_, _, _, _], rfl⟩)
    exact ⟨members, heq⟩

/-- An interface with broken members, and a type alias behind it. -/
def malformedInterface : TokenStream :=
  textStream "interface A \x7b a: ; b(c = \x7b d \x7d) [e f] g? = h \x7d type B = C;" ⟨0⟩

/-- A class with a block and an initializer in its body, and a type alias behind it. -/
def malformedClass : TokenStream :=
  textStream "declare class A \x7b static \x7b a b \x7d c = \x7b d \x7d \x7d type B = C;" ⟨0⟩

theorem errors_stay_in_body_malformed :
    (∃ word name opening closing body after members,
      malformedInterface.pending = word :: name :: opening :: body ++ closing :: after ∧
      closing.kind = .mark .closeBrace ∧ properlyNested [] body = true ∧
      (parseTokens malformedInterface ⟨0⟩ default).module.statements =
        ⟨.interface ⟨⟨name.text, name.span⟩, [], [], members⟩,
          .between ⟨0⟩ word.span.start closing.span.stop⟩ ::
          (parseTokens { malformedInterface with pending := after } ⟨0⟩
            default).module.statements) ∧
    ∃ declare word name opening closing body after members,
      malformedClass.pending = declare :: word :: name :: opening :: body ++ closing :: after ∧
      closing.kind = .mark .closeBrace ∧ properlyNested [] body = true ∧
      (parseTokens malformedClass ⟨0⟩ default).module.statements =
        ⟨.ambient ⟨.class ⟨some ⟨name.text, name.span⟩, false, [], none, [], members⟩,
          .between ⟨0⟩ word.span.start closing.span.stop⟩,
          .between ⟨0⟩ declare.span.start closing.span.stop⟩ ::
          (parseTokens { malformedClass with pending := after } ⟨0⟩
            default).module.statements := by
  constructor
  · let token (n : Nat) := malformedInterface.pending.getD n default
    let body := (malformedInterface.pending.drop 3).take 19
    let after := malformedInterface.pending.drop 23
    have hpending : malformedInterface.pending =
        token 0 :: token 1 :: token 2 :: body ++ token 22 :: after := by decide +kernel
    have hkinds : (token 0).kind = .word .interface ∧ (token 1).kind.isBindingName = true ∧
        (token 2).kind = .mark .openBrace ∧ (token 22).kind = .mark .closeBrace ∧
        properlyNested [] body = true := by decide +kernel
    have hkept : malformedInterface.size ≤ (default : Limits).maxTokens ∧
        ∀ diagnostic ∈ (turnOutcome default malformedInterface ⟨0⟩).reported,
          diagnostic.losesBrace = false := by decide +kernel
    obtain ⟨hword, hname, hopening, hclosing, hbody⟩ := hkinds
    obtain ⟨members, hmembers⟩ := (errors_stay_in_body ⟨0⟩ hname hopening hclosing hbody
      (fun _ => textStream_ends _ _) hkept.1 hkept.2).1 (token 0) hword hpending
    exact ⟨_, _, _, _, _, _, members, hpending, hclosing, hbody, hmembers⟩
  · let token (n : Nat) := malformedClass.pending.getD n default
    let body := (malformedClass.pending.drop 4).take 10
    let after := malformedClass.pending.drop 15
    have hpending : malformedClass.pending =
        token 0 :: token 1 :: token 2 :: token 3 :: body ++ token 14 :: after := by
      decide +kernel
    have hkinds : (token 0).kind = .word .declare ∧ (token 1).kind = .word .class ∧
        (token 2).kind.isBindingName = true ∧ (token 3).kind = .mark .openBrace ∧
        (token 14).kind = .mark .closeBrace ∧ properlyNested [] body = true := by decide +kernel
    have hkept : malformedClass.size ≤ (default : Limits).maxTokens ∧
        ∀ diagnostic ∈ (turnOutcome default malformedClass ⟨0⟩).reported,
          diagnostic.losesBrace = false := by decide +kernel
    obtain ⟨hdeclare, hword, hname, hopening, hclosing, hbody⟩ := hkinds
    obtain ⟨members, hmembers⟩ := (errors_stay_in_body ⟨0⟩ hname hopening hclosing hbody
      (fun _ => textStream_ends _ _) hkept.1 hkept.2).2 (token 0) (token 1) hdeclare hword hpending
    exact ⟨_, _, _, _, _, _, _, members, hpending, hclosing, hbody, hmembers⟩

/-- An interface whose first member has a body. -/
def methodWithBody : TokenStream :=
  textStream "interface A \x7b\n  run(): void \x7b return \x7d\n  b: C\n\x7d" ⟨0⟩

/-- Where a member has a body, the interface ends with the brace that closes that. -/
theorem body_left_at_brace :
    (methodWithBody.pending.take 3).map Token.kind =
        [.word .interface, .identifier, .mark .openBrace] ∧
      properlyNested [] (methodWithBody.pending.drop 3).dropLast = true ∧
      methodWithBody.pending.getLast?.map Token.kind = some (.mark .closeBrace) ∧
      (parseTokens methodWithBody ⟨0⟩ default).module.statements.head?.map (·.span.stop) ≠
        methodWithBody.pending.getLast?.map (·.span.stop) := by
  decide +kernel

end DeclFile
