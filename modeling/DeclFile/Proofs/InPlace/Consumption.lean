import DeclFile.Parsed

/-! # Whatever gets a span reads a token

A span goes on to the last token that was read. Where a part of a text reads none, that would be
a token in front of the part, perhaps far away. But every part that gets a span reads a token of
its own, if it comes to a result at all. This holds of every source of tokens, in whatever order
they are.
-/

namespace DeclFile

variable {σ α β : Type} [TokenSource σ]

namespace Parser

/-- Where the parser comes to a result that `P` holds of, it has read a token. -/
def Consumes (reach : Reach σ) (source : σ) (parser : Parser α) (P : α → Prop) : Prop :=
  ∀ result, (parser.runWith reach source).result? = some result → P result →
    (parser.runWith reach source).lastRead.isSome = true

end Parser

/-- The types that are reached here are read from tokens. -/
class Reach.Consuming (reach : Reach σ) : Prop where
  type (source : σ) : (Parser.nested .type).Consumes reach source fun _ => True

namespace Parser

section

variable {reach : Reach σ} {source : σ}

theorem runWith_peek : peek.runWith reach source = .ofResult (TokenSource.peek source) source :=
  congrArg (Outcome.ofResult · source) (TokenSource.ahead_zero source)

theorem runWith_peekKind :
    peekKind.runWith reach source = .ofResult (TokenSource.peek source).kind source :=
  congrArg (fun token : Token => Outcome.ofResult token.kind source) (TokenSource.ahead_zero source)

theorem runWith_kindAhead (n : Nat) :
    (kindAhead n).runWith reach source = .ofResult (TokenSource.ahead source n).kind source :=
  rfl

omit [TokenSource σ] in
theorem isSome_lastRead_iterate {turn : β → σ → Outcome σ (Step β α)} (turns : Nat) (state : β)
    {sofar : Outcome σ Unit} (h : sofar.lastRead.isSome = true) :
    (iterate turn turns state sofar).lastRead.isSome = true := by
  induction turns generalizing state sofar with
  | zero => exact h
  | succ turns ih =>
      have hlater (last : Option Span) : (last.or sofar.lastRead).isSome = true := by
        rw [Option.isSome_or, h, Bool.or_true]
      rw [iterate]
      rcases (turn state sofar.rest).result? with _ | next | result
      · exact hlater _
      · exact ih next (hlater _)
      · exact hlater _

end

namespace Consumes

variable {reach : Reach σ} {source : σ} {parser : Parser α} {P Q : α → Prop} {R : β → Prop}

/-- Nothing is asked where no result is meant. -/
theorem never (h : ∀ result, ¬P result) : parser.Consumes reach source P :=
  fun result _ hholds => absurd hholds (h result)

theorem fail : (Parser.fail : Parser α).Consumes reach source P :=
  fun _ hresult => nomatch hresult

theorem pure {result : α} (h : ¬P result) :
    (Pure.pure result : Parser α).Consumes reach source P := by
  rintro found ⟨⟩ hfound
  exact absurd hfound h

theorem advance {P : Token → Prop} (h : (TokenSource.peek source).kind ≠ .endOfText) :
    Parser.advance.Consumes reach source P := by
  intro _ _ _
  simp [runWith, readToken, h]

/-! ### One after another -/

/-- Either the first part reads a token, or what comes after it does. -/
theorem bind_of_run {next : α → Parser β} (hfirst : parser.Consumes reach source Q)
    (hnext : ∀ result, (parser.runWith reach source).result? = some result → ¬Q result →
      (next result).Consumes reach (parser.runWith reach source).rest R) :
    (parser >>= next).Consumes reach source R := by
  intro found hfound hholds
  change ((parser.runWith reach source).andThen _).result? = _ at hfound
  change ((parser.runWith reach source).andThen _).lastRead.isSome = true
  cases hresult : (parser.runWith reach source).result? with
  | none => simp [Outcome.andThen, Outcome.withResult?, hresult] at hfound
  | some result =>
      simp only [Outcome.andThen, Outcome.followedBy, hresult] at hfound ⊢
      rw [Option.isSome_or, Bool.or_eq_true]
      by_cases hread : Q result
      · exact .inr (hfirst result hresult hread)
      · exact .inl (hnext result hresult hread found hfound hholds)

theorem bind {next : α → Parser β} (hfirst : parser.Consumes reach source Q)
    (hnext : ∀ result rest, ¬Q result → (next result).Consumes reach rest R) :
    (parser >>= next).Consumes reach source R :=
  bind_of_run hfirst fun result _ hread => hnext result _ hread

/-- The first part reads a token. -/
theorem first {next : α → Parser β} (h : parser.Consumes reach source fun _ => True) :
    (parser >>= next).Consumes reach source R :=
  bind h fun _ _ hread => absurd trivial hread

theorem map {f : α → β} (h : parser.Consumes reach source fun _ => True) :
    (f <$> parser).Consumes reach source R :=
  first h

/-- What comes after the first part reads a token, wherever it begins. -/
theorem next {next : α → Parser β} (h : ∀ result rest, (next result).Consumes reach rest R) :
    (parser >>= next).Consumes reach source R :=
  bind (Q := fun _ => False) (never fun _ => id) fun result rest _ => h result rest

/-- What is found out first may be put in its place. -/
theorem observe {found : α} {next : α → Parser β}
    (hrun : parser.runWith reach source = .ofResult found source)
    (h : (next found).Consumes reach source R) : (parser >>= next).Consumes reach source R := by
  refine bind_of_run (Q := fun _ => False) (never fun _ => id) fun result hresult _ => ?_
  rw [hrun] at hresult ⊢
  obtain rfl := Option.some.inj hresult
  exact h

theorem peek_bind {next : Token → Parser β}
    (h : (next (TokenSource.peek source)).Consumes reach source R) :
    (Parser.peek >>= next).Consumes reach source R :=
  observe runWith_peek h

theorem peekKind_bind {next : Kind → Parser β}
    (h : (next (TokenSource.peek source).kind).Consumes reach source R) :
    (Parser.peekKind >>= next).Consumes reach source R :=
  observe runWith_peekKind h

theorem kindAhead_bind {n : Nat} {next : Kind → Parser β}
    (h : (next (TokenSource.ahead source n).kind).Consumes reach source R) :
    (Parser.kindAhead n >>= next).Consumes reach source R :=
  observe (runWith_kindAhead n) h

theorem ite {condition : Prop} [Decidable condition] {other : Parser α}
    (h : condition → parser.Consumes reach source P)
    (hother : ¬condition → other.Consumes reach source P) :
    (if condition then parser else other).Consumes reach source P := by
  split
  next htrue => exact h htrue
  next hfalse => exact hother hfalse

/-- Something or another may be done before the rest, which reads a token. -/
theorem either {condition : Prop} [Decidable condition] {other : Parser α} {rest : α → Parser β}
    (h : ∀ result source, (rest result).Consumes reach source R) :
    (if condition then parser >>= fun result => rest result
      else other >>= fun result => rest result).Consumes reach source R :=
  .ite (fun _ => next h) fun _ => next h

theorem when {condition : Prop} [Decidable condition] {rest : Parser β}
    (h : ∀ source, rest.Consumes reach source R) :
    (if condition then parser >>= fun _ => rest else rest).Consumes reach source R :=
  .ite (fun _ => next fun _ => h) fun _ => h source

/-! ### Spans, attempts and loops -/

theorem withSpan {start? : Option Pos} {P : α × Span → Prop}
    (h : parser.Consumes reach source fun _ => True) :
    (Parser.withSpan start? parser).Consumes reach source P := by
  intro found hfound _
  obtain ⟨result, hresult, -⟩ := Option.map_eq_some_iff.mp hfound
  exact h result hresult trivial

theorem spanned {make : α → Span → β} (h : parser.Consumes reach source fun _ => True) :
    (Parser.spanned make parser).Consumes reach source R :=
  first (withSpan h)

/-- A part that gets a span reads a token if the whole does. -/
theorem of_spanned {make : α → Span → β}
    (h : (Parser.spanned make parser).Consumes reach source fun _ => True) :
    parser.Consumes reach source fun _ => True := by
  intro result hresult _
  have hrun : (Parser.spanned make parser).runWith reach source =
      (parser.runWith reach source).withResult? (some (make result <|
        (parser.runWith reach source).spanFrom reach.file
          (TokenSource.peek source).span.start)) := by
    change Outcome.andThen ((Parser.withSpan none parser).runWith reach source) _ = _
    simp [runWith, Outcome.andThen, Outcome.spannedFrom, Outcome.withResult?, hresult,
      Outcome.followedBy, Outcome.ofResult, Pure.pure]
  have hread := h (make result _) (congrArg Outcome.result? hrun) trivial
  rwa [hrun] at hread

theorem attempt (h : parser.Consumes reach source fun _ => True) :
    parser.attempt.Consumes reach source (·.isSome = true) := by
  intro found hfound hsome
  obtain ⟨result, hresult, -, heq⟩ | heq :=
    (parser.runWith reach source).attempted_cases source
  · rw [runWith, heq]
    exact h result hresult trivial
  · rw [runWith, heq] at hfound
    cases hfound
    cases hsome

/-- An attempt that does not succeed leaves the source as it was. -/
theorem attempt_bind {next : Option α → Parser β}
    (h : parser.Consumes reach source fun _ => True)
    (hnone : (next none).Consumes reach source R) :
    (parser.attempt >>= next).Consumes reach source R := by
  refine bind_of_run (attempt h) fun found hfound hnot => ?_
  obtain ⟨result, -, -, heq⟩ | heq := (parser.runWith reach source).attempted_cases source
  · rw [runWith, heq] at hfound
    cases hfound
    exact absurd rfl hnot
  · rw [runWith, heq] at hfound ⊢
    cases hfound
    exact hnone

/-- A loop reads a token if its first turn does. -/
theorem loop {init : β} {turn : β → Parser (Step β α)}
    (h : (turn init).Consumes reach source fun _ => True) :
    (Parser.loop init turn).Consumes reach source P := by
  intro found hfound _
  rw [runWith, iterate] at hfound ⊢
  rcases hresult : ((turn init).runWith reach source).result? with _ | step
  · simp only [Outcome.ofResult, hresult] at hfound
    cases hfound
  · have hread := h step hresult trivial
    obtain ⟨span, hspan⟩ := Option.isSome_iff_exists.mp hread
    cases step with
    | more next =>
        simp only [Outcome.ofResult, hresult]
        exact isSome_lastRead_iterate _ next
          (by simp [Outcome.followedBy, hspan, Outcome.withResult?])
    | done result =>
        simp [Outcome.ofResult, hresult, Outcome.followedBy, hspan, Outcome.withResult?]

theorem collect {turn : Parser (Turn α)} {P : List α → Prop}
    (h : turn.Consumes reach source fun _ => True) :
    (Parser.collect turn).Consumes reach source P :=
  loop (first h)

/-! ### Tokens of a kind -/

theorem refuse {cause : Kind → Cause} : (Parser.refuse cause : Parser α).Consumes reach source P :=
  next fun _ _ => next fun _ _ => fail

theorem expect {kind : Kind} {P : Token → Prop} (h : kind ≠ .endOfText) :
    (Parser.expect kind).Consumes reach source P :=
  peekKind_bind <| .ite (fun heq => advance (heq ▸ h)) fun _ => refuse

end Consumes

section

variable {reach : Reach σ} {source : σ}

/-! ## Names -/

theorem readIdent_consumes (h : (TokenSource.peek source).kind ≠ .endOfText) :
    readIdent.Consumes reach source fun _ => True :=
  .first (.advance h)

theorem ident_consumes : ident.Consumes reach source fun _ => True :=
  .peekKind_bind <| .ite (fun hname => readIdent_consumes (Kind.ne_endOfText hname rfl))
    fun _ => .refuse

theorem anyIdent_consumes : anyIdent.Consumes reach source fun _ => True :=
  .peekKind_bind <| .ite (fun hname => readIdent_consumes (Kind.ne_endOfText hname rfl))
    fun _ => .refuse

theorem stringLit_consumes : stringLit.Consumes reach source fun _ => True :=
  .first (.expect nofun)

theorem exportName_consumes : exportName.Consumes reach source fun _ => True :=
  .peekKind_bind <| .ite (fun heq => readIdent_consumes (heq ▸ nofun)) fun _ => anyIdent_consumes

theorem entityName_consumes : entityName.Consumes reach source fun _ => True :=
  .spanned <| .peekKind_bind <| .ite (fun heq => .first (readIdent_consumes (heq ▸ nofun)))
    fun _ => .first ident_consumes

theorem qualifier_consumes : qualifier.Consumes reach source fun _ => True :=
  .spanned (.first anyIdent_consumes)

theorem propertyName_consumes : propertyName.Consumes reach source fun _ => True := by
  refine .peek_bind ?_
  split
  next heq => exact .first (.advance (heq ▸ nofun))
  next heq => exact .first (.advance (heq ▸ nofun))
  next heq => exact .first (.advance (heq ▸ nofun))
  next heq => exact .spanned (.first (.advance (heq ▸ nofun)))
  next =>
    exact .ite (fun hname => .first (readIdent_consumes (Kind.ne_endOfText hname rfl)))
      fun _ => .refuse

/-! ## Groups and parameters -/

theorem skipGroup_consumes (h : (TokenSource.peek source).kind ≠ .endOfText) :
    skipGroup.Consumes reach source fun _ => True :=
  .loop <| .peekKind_bind <| .ite (fun hend => absurd hend h) fun _ => .first (.advance h)

theorem bindingName_consumes : bindingName.Consumes reach source fun _ => True := by
  refine .peekKind_bind ?_
  split
  next heq => exact .spanned (skipGroup_consumes (heq ▸ nofun))
  next heq => exact .spanned (skipGroup_consumes (heq ▸ nofun))
  next heq => exact .first (readIdent_consumes (heq ▸ nofun))
  next => exact .first ident_consumes

theorem typeRef_consumes : typeRef.Consumes reach source fun _ => True :=
  .spanned (.first entityName_consumes)

theorem typeParam_consumes : typeParam.Consumes reach source fun _ => True :=
  .spanned <| .next fun _ _ => .first ident_consumes

theorem param_consumes : param.Consumes reach source fun _ => True :=
  .spanned <| .next fun _ _ => .next fun _ _ => .first bindingName_consumes

theorem params_consumes : params.Consumes reach source fun _ => True :=
  .first (.expect nofun)

/-! ## Functions -/

theorem predicateRest_consumes (asserts : Bool) :
    (predicateRest asserts).Consumes reach source fun _ => True :=
  .first <| .peekKind_bind <| .ite (fun heq => .first (.advance (heq ▸ nofun)))
    fun _ => .first ident_consumes

theorem predicate_consumes : predicate.Consumes reach source fun _ => True :=
  .spanned <| .peekKind_bind <| .kindAhead_bind <| .ite
    (fun _ => .next fun _ _ => .next fun _ _ => .ite (fun _ => .fail)
      fun _ => predicateRest_consumes true)
    fun _ => predicateRest_consumes false

theorem functionTail_consumes (typeParams : List TypeParam) :
    (functionTail typeParams).Consumes reach source fun _ => True :=
  .first params_consumes

theorem signature_consumes : signature.Consumes reach source fun _ => True :=
  .next fun _ _ => .first params_consumes

/-! ## Types -/

theorem type_consumes [hreach : reach.Consuming] : type.Consumes reach source fun _ => True :=
  hreach.type source

theorem labelledElement_consumes : labelledElement.Consumes reach source fun _ => True :=
  .spanned <| .next fun _ _ => .first anyIdent_consumes

theorem parenType_consumes (h : (TokenSource.peek source).kind ≠ .endOfText) :
    parenType.Consumes reach source fun _ => True :=
  .attempt_bind (functionTail_consumes []) (.first (.advance h))

theorem genericFunctionType_consumes : genericFunctionType.Consumes reach source fun _ => True :=
  .attempt_bind (.next fun _ _ => functionTail_consumes _) .refuse

theorem constructorType_consumes (isAbstract : Bool) :
    (constructorType isAbstract).Consumes reach source fun _ => True :=
  .first (.expect nofun)

theorem abstractConstructorType_consumes :
    abstractConstructorType.Consumes reach source fun _ => True :=
  .attempt_bind (.next fun _ _ => constructorType_consumes true) .refuse

theorem braceType_consumes (h : (TokenSource.peek source).kind ≠ .endOfText) :
    braceType.Consumes reach source fun _ => True :=
  .attempt_bind (.first (.expect nofun)) (.first (.advance h))

theorem importType_consumes : importType.Consumes reach source fun _ => True :=
  .first (.expect nofun)

theorem namedType_consumes : namedType.Consumes reach source fun _ => True := by
  refine .peek_bind <| .kindAhead_bind <| .ite (fun hword => .first (.advance fun heq => ?_))
    fun _ => .ite (fun _ => .first typeRef_consumes) fun _ => .refuse
  simp [heq] at hword

theorem primaryKind_consumes : primaryKind.Consumes reach source fun _ => True := by
  refine .peek_bind ?_
  split
  next hprimitive =>
    refine .first (.advance fun heq => ?_)
    simp [heq, primitive?] at hprimitive
  next =>
    split
    next heq => exact .first (.advance (heq ▸ nofun))
    next heq => exact .first (.advance (heq ▸ nofun))
    next heq => exact .first (.advance (heq ▸ nofun))
    next heq => exact .first (.advance (heq ▸ nofun))
    next heq => exact .first (.advance (heq ▸ nofun))
    next heq =>
      exact .kindAhead_bind <| .ite (fun _ => .first (.advance (heq ▸ nofun))) fun _ => .refuse
    next heq => exact .first (.advance (heq ▸ nofun))
    next heq => exact .first (.advance (heq ▸ nofun))
    next heq => exact .first (.advance (heq ▸ nofun))
    next heq => exact parenType_consumes (heq ▸ nofun)
    next => exact genericFunctionType_consumes
    next => exact constructorType_consumes false
    next => exact abstractConstructorType_consumes
    next heq => exact .first (.advance (heq ▸ nofun))
    next heq => exact braceType_consumes (heq ▸ nofun)
    next heq => exact .first (.advance (heq ▸ nofun))
    next => exact .first importType_consumes
    next heq => exact .first (.advance (heq ▸ nofun))
    next => exact namedType_consumes

theorem suffix_consumes (h : (TokenSource.peek source).kind ≠ .endOfText) :
    suffix.Consumes reach source fun _ => True :=
  .first (.advance h)

theorem suffixedType_consumes : suffixedType.Consumes reach source fun _ => True :=
  .first (.spanned primaryKind_consumes)

theorem inferredType_consumes (inBound : Bool) :
    (inferredType inBound).Consumes reach source fun _ => True :=
  .next fun _ _ => .first ident_consumes

/-- The words of an operator are tokens of their own. -/
theorem operatorType_consumes (inBound : Bool) :
    (operatorType inBound).Consumes reach source fun _ => True := by
  refine .peekKind_bind <| .kindAhead_bind ?_
  split
  next heq => exact .spanned (.first (.advance (heq ▸ nofun)))
  split
  next heq =>
    obtain ⟨heq, -⟩ := Bool.and_eq_true_iff.mp heq
    exact .spanned (.first (.advance (of_decide_eq_true heq ▸ nofun)))
  split
  next heq =>
    obtain ⟨heq, -⟩ := Bool.and_eq_true_iff.mp heq
    exact .spanned (.first (.advance (of_decide_eq_true heq ▸ nofun)))
  split
  next => exact .spanned (inferredType_consumes inBound)
  next => exact suffixedType_consumes

theorem operands_consumes {mark : Mark} {wrap : List Ty → TyKind} {operand : Parser Ty}
    (h : ∀ source, operand.Consumes reach source fun _ => True) :
    (operands mark wrap operand).Consumes reach source fun _ => True := by
  unfold operands
  exact .spanned <| .next fun _ rest => .first (h rest)

theorem unionType_consumes (inBound : Bool) :
    (unionType inBound).Consumes reach source fun _ => True :=
  operands_consumes fun _ => operands_consumes fun _ => operatorType_consumes inBound

theorem conditionalType_consumes : conditionalType.Consumes reach source fun _ => True := by
  unfold conditionalType
  exact .spanned (.first (unionType_consumes false))

/-! ## Members -/

theorem indexSignature?_consumes (readonly : Bool) :
    (indexSignature? readonly).Consumes reach source (·.isSome = true) :=
  .peekKind_bind <| .ite (fun _ => .attempt_bind (.first (.expect nofun)) (.pure nofun))
    fun _ => .pure nofun

theorem accessorHead_consumes : accessorHead.Consumes reach source fun _ => True :=
  .next fun _ _ => .next fun _ _ => .when fun _ => .first propertyName_consumes

theorem accessor?_consumes : accessor?.Consumes reach source (·.isSome = true) :=
  .peekKind_bind <| .ite (fun _ => .attempt_bind accessorHead_consumes (.pure nofun))
    fun _ => .pure nofun

theorem keyedMember_consumes : keyedMember.Consumes reach source fun _ => True := by
  refine .next fun _ _ => .next fun _ _ => .when fun _ =>
    .bind (indexSignature?_consumes _) fun index? _ hnone => ?_
  cases index? with
  | some => exact absurd rfl hnone
  | none =>
      refine .bind accessor?_consumes fun accessor? _ hnone => ?_
      cases accessor? with
      | some => exact absurd rfl hnone
      | none => exact .first propertyName_consumes

theorem member_consumes : member.Consumes reach source fun _ => True :=
  .spanned <| .next fun _ _ => .next fun _ _ => .ite (fun _ => .first signature_consumes) fun _ =>
    .ite (fun _ => .next fun _ _ => .first signature_consumes) fun _ => keyedMember_consumes

theorem classMemberKind_consumes (modifiers : Modifiers) :
    (classMemberKind modifiers).Consumes reach source fun _ => True := by
  refine .next fun _ _ => .ite (fun _ => .next fun _ _ => .next fun _ _ => .fail) fun _ =>
    .next fun _ _ => .ite (fun _ => .next fun _ _ => .first signature_consumes) fun _ =>
    .bind (indexSignature?_consumes _) fun index? _ hnone => ?_
  cases index? with
  | some => exact absurd rfl hnone
  | none =>
      refine .bind accessor?_consumes fun accessor? _ hnone => ?_
      cases accessor? with
      | some => exact absurd rfl hnone
      | none => exact .first propertyName_consumes

theorem classMember_consumes : classMember.Consumes reach source fun _ => True :=
  .spanned <| .next fun modifiers _ => .first (classMemberKind_consumes modifiers)

/-! ## Declarations -/

theorem declarator_consumes (kind : VarKind) :
    (declarator kind).Consumes reach source fun _ => True :=
  .spanned (.first ident_consumes)

theorem varDecl_consumes (kind : VarKind) : (varDecl kind).Consumes reach source fun _ => True :=
  .next fun _ _ => .first (.collect (.first (declarator_consumes kind)))

theorem functionDecl_consumes (anonymous : Bool) :
    (functionDecl anonymous).Consumes reach source fun _ => True :=
  .next fun _ _ => .next fun _ _ => .either fun _ _ => .first signature_consumes

theorem braced_consumes {body : Parser α} : (braced body).Consumes reach source fun _ => True :=
  .first (.expect nofun)

theorem classDecl_consumes (isAbstract anonymous : Bool) :
    (classDecl isAbstract anonymous).Consumes reach source fun _ => True :=
  .next fun _ _ => .next fun _ _ => .either fun _ _ => .next fun _ _ => .next fun _ _ =>
    .either fun _ _ => .next fun _ _ => .either fun _ _ => .first braced_consumes

theorem interfaceDecl_consumes : interfaceDecl.Consumes reach source fun _ => True :=
  .next fun _ _ => .first ident_consumes

theorem typeAlias_consumes : typeAlias.Consumes reach source fun _ => True :=
  .next fun _ _ => .first ident_consumes

theorem enumMember_consumes : enumMember.Consumes reach source fun _ => True :=
  .spanned (.first propertyName_consumes)

theorem enumDecl_consumes (isConst : Bool) :
    (enumDecl isConst).Consumes reach source fun _ => True :=
  .next fun _ _ => .first ident_consumes

theorem namespaceDecl_consumes : namespaceDecl.Consumes reach source fun _ => True :=
  .first (.spanned (.first ident_consumes))

theorem ambientModule_consumes : ambientModule.Consumes reach source fun _ => True :=
  .first stringLit_consumes

theorem declarationKind_consumes (ambient anonymous : Bool) :
    (declarationKind ambient anonymous).Consumes reach source fun _ => True := by
  have hvariable {source : σ} (kind : VarKind) :
      (variableStatement ambient kind).Consumes reach source fun _ => True :=
    .next fun _ _ => .first (varDecl_consumes kind)
  have hfunction {source : σ} (async : Bool) :
      (functionStatement ambient async anonymous).Consumes reach source fun _ => True :=
    .next fun _ _ => .when fun _ => .first (functionDecl_consumes anonymous)
  have hclass {source : σ} (isAbstract : Bool) :
      (classStatement ambient isAbstract anonymous).Consumes reach source fun _ => True :=
    .next fun _ _ => .when fun _ => .first (classDecl_consumes isAbstract anonymous)
  refine .peekKind_bind <| .kindAhead_bind ?_
  dsimp only
  split
  next => exact hvariable .var
  next => exact hvariable .let
  next =>
    refine .ite (fun _ => .next fun _ _ => .first (enumDecl_consumes true)) fun _ => ?_
    exact hvariable .const
  next => exact hfunction false
  next => exact .ite (fun _ => hfunction true) fun _ => .refuse
  next => exact hclass false
  next => exact .ite (fun _ => hclass true) fun _ => .refuse
  next => exact .first interfaceDecl_consumes
  next => exact .ite (fun _ => .first typeAlias_consumes) fun _ => .refuse
  next => exact .first (enumDecl_consumes false)
  next => exact .next fun _ _ => namespaceDecl_consumes
  next =>
    refine .next fun _ _ => ?_
    exact .ite (fun _ => ambientModule_consumes) fun _ => namespaceDecl_consumes
  next heq => exact .ite (fun _ => .first (.advance (heq ▸ nofun))) fun _ => .refuse
  next => exact .refuse

theorem declaration_consumes (ambient anonymous : Bool) :
    (declaration ambient anonymous).Consumes reach source fun _ => True :=
  .spanned (declarationKind_consumes ambient anonymous)

theorem ambientDeclaration_consumes : ambientDeclaration.Consumes reach source fun _ => True :=
  .spanned <| .next fun _ _ => declaration_consumes true false

/-! ## Imports and exports -/

theorem importSpecifier_consumes (typeOnly : Bool) :
    (importSpecifier typeOnly).Consumes reach source fun _ => True :=
  .first exportName_consumes

theorem exportSpecifier_consumes (typeOnly : Bool) :
    (exportSpecifier typeOnly).Consumes reach source fun _ => True :=
  .first exportName_consumes

theorem specifiers_consumes {specifier : Bool → Parser (Span → α)} :
    (specifiers specifier).Consumes reach source fun _ => True :=
  .first (.expect nofun)

theorem importClause_consumes : importClause.Consumes reach source fun _ => True :=
  .next fun _ _ => .either fun _ _ => .either fun _ _ => .either fun _ _ => .first (.expect nofun)

theorem importKind_consumes : importKind.Consumes reach source fun _ => True :=
  .next fun _ _ => .next fun _ _ => .ite (fun _ => .first (.first stringLit_consumes)) fun _ =>
    .ite (fun _ => .first ident_consumes) fun _ => importClause_consumes

theorem importStatement_consumes : importStatement.Consumes reach source fun _ => True :=
  .spanned <| .next fun _ _ => .next fun _ _ => .when fun _ => .first importKind_consumes

theorem defaultExport_consumes : defaultExport.Consumes reach source fun _ => True :=
  .next fun _ _ => .next fun _ _ => .ite (fun _ => .first (declaration_consumes true true)) fun _ =>
    .ite (fun _ => .first entityName_consumes) fun _ =>
    .next fun _ _ => .next fun _ _ => .next fun _ _ => .fail

theorem exportAll_consumes (typeOnly : Bool) :
    (exportAll typeOnly).Consumes reach source fun _ => True :=
  .next fun _ _ => .next fun _ _ => .either fun _ _ => .first (.expect nofun)

theorem exported_consumes : exported.Consumes reach source fun _ => True := by
  refine .next fun _ _ => .next fun _ _ => ?_
  split
  next => exact .next fun _ _ => .first entityName_consumes
  next => exact .next fun _ _ => .first (.expect nofun)
  next => exact .next fun _ _ => defaultExport_consumes
  next => exact exportAll_consumes false
  next => exact .first specifiers_consumes
  next =>
    refine .ite (fun _ => .next fun _ _ => .first specifiers_consumes) fun _ => ?_
    exact .ite (fun _ => .next fun _ _ => exportAll_consumes true)
      fun _ => .map (declaration_consumes true false)
  next => exact .map importStatement_consumes
  next => exact .map ambientDeclaration_consumes
  next => exact .map (declaration_consumes true false)

theorem exportStatement_consumes : exportStatement.Consumes reach source fun _ => True :=
  .spanned <| .next fun _ _ => exported_consumes

end

end Parser

/-! ## Levels of nesting -/

/-- Where every goal fails, none comes to a type. -/
instance Reach.consuming_failure (file : SourceId) :
    Reach.Consuming (⟨file, fun _ source => .failure source⟩ : Reach σ) where
  type _ := nofun

section

variable {limit : Nat} {file : SourceId} {source : σ}

theorem Parser.tooDeep_consumes {reach : Reach σ} :
    (Parser.refusal.tooDeep limit : Parser Ty).Consumes reach source fun _ => True :=
  .refuse

/-- Whatever the levels are, types are read from tokens. -/
instance Grammar.consuming_reach (levels : Nat) :
    ((grammar limit).reach file levels : Reach σ).Consuming where
  type source := by
    cases levels with
    | zero =>
        exact (Parser.tooDeep_consumes : Parser.Consumes ⟨file, _⟩ source
          (Parser.refusal limit .type) _)
    | succ levels =>
        exact (Parser.conditionalType_consumes : Parser.Consumes
          ((grammar limit).reach file levels) source Parser.conditionalType _)

end

end DeclFile
