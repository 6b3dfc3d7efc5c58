import DeclFile.Proofs.InPlace.Consumption

/-! # Which goals parsers reach

Only operands and the constraints of inferred types are reached as standing in the bound of a
conditional type or outside of one. Every other parser hands that on as it was handed down,
or begins anew with a whole type. And every parser reads what it gives spans to; where the token
that is next decides on the part with the span, that token is what it reads.
-/

namespace DeclFile

/-- What is reached stands in the bound of a conditional type if and only if `inBound`, where
that matters. -/
def Goal.Keeps (inBound : Bool) : Goal → Prop
  | .operand other | .constraint other => other = inBound
  | _ => True

namespace Parser

variable {σ α β : Type} [TokenSource σ] {reach : Reach σ} {inBound : Bool} {source : σ}

/-- All goals that the parser can reach from `source` stand in the bound if and only if `inBound`,
and whatever it gives a span to reads a token. -/
def KeepsFrom (reach : Reach σ) (inBound : Bool) {α : Type} : Parser α → σ → Prop
  | .bind first next, source =>
      first.KeepsFrom reach inBound source ∧
        ∀ result, (first.runWith reach source).result? = some result →
          (next result).KeepsFrom reach inBound (first.runWith reach source).rest
  | .withSpan _ inner, source =>
      inner.KeepsFrom reach inBound source ∧ inner.Consumes reach source fun _ => True
  | .attempt inner, source => inner.KeepsFrom reach inBound source
  | .settle inner, source => inner.KeepsFrom reach inBound source
  | .loop _ turn, _ => ∀ state source, (turn state).KeepsFrom reach inBound source
  | .nested goal, _ => goal.Keeps inBound
  | _, _ => True

/-- Wherever it begins, the parser keeps to the bound and reads what it gives spans to. -/
def Keeps (inBound : Bool) (parser : Parser α) : Prop :=
  ∀ (σ : Type) [TokenSource σ] (reach : Reach σ) [reach.Consuming] (source : σ),
    parser.KeepsFrom reach inBound source

/-- Wherever it begins, the parser reads a token if it comes to a result. -/
abbrev Reads (parser : Parser α) : Prop :=
  ∀ {σ : Type} [TokenSource σ] {reach : Reach σ} [reach.Consuming] {source : σ},
    parser.Consumes reach source fun _ => True

theorem Keeps.here [reach.Consuming] {parser : Parser α} (h : parser.Keeps inBound) :
    parser.KeepsFrom reach inBound source :=
  h σ reach source

/-! ### From a certain token on -/

namespace KeepsFrom

variable {parser : Parser α}

theorem bind [reach.Consuming] {next : α → Parser β} (h : parser.KeepsFrom reach inBound source)
    (hnext : ∀ result, (next result).Keeps inBound) :
    (parser >>= next).KeepsFrom reach inBound source :=
  ⟨h, fun result _ => (hnext result).here⟩

theorem withSpan {start? : Option Pos} (h : parser.KeepsFrom reach inBound source)
    (hreads : parser.Consumes reach source fun _ => True) :
    (Parser.withSpan start? parser).KeepsFrom reach inBound source :=
  ⟨h, hreads⟩

theorem spanned {make : α → Span → β} (h : parser.KeepsFrom reach inBound source)
    (hreads : (Parser.spanned make parser).Consumes reach source fun _ => True) :
    (Parser.spanned make parser).KeepsFrom reach inBound source :=
  ⟨h.withSpan hreads.of_spanned, fun _ _ => trivial⟩

theorem ite {condition : Prop} [Decidable condition] {other : Parser α}
    (h : condition → parser.KeepsFrom reach inBound source)
    (hother : ¬condition → other.KeepsFrom reach inBound source) :
    (if condition then parser else other).KeepsFrom reach inBound source := by
  split
  next htrue => exact h htrue
  next hfalse => exact hother hfalse

/-- What is found out first may be put in its place. -/
theorem observe {found : α} {next : α → Parser β} (h : parser.KeepsFrom reach inBound source)
    (hrun : parser.runWith reach source = .ofResult found source)
    (hnext : (next found).KeepsFrom reach inBound source) :
    (parser >>= next).KeepsFrom reach inBound source := by
  refine ⟨h, fun result hresult => ?_⟩
  rw [hrun] at hresult ⊢
  cases hresult
  exact hnext

theorem peek_bind {next : Token → Parser β}
    (h : (next (TokenSource.peek source)).KeepsFrom reach inBound source) :
    (Parser.peek >>= next).KeepsFrom reach inBound source :=
  observe trivial runWith_peek h

theorem peekKind_bind {next : Kind → Parser β}
    (h : (next (TokenSource.peek source).kind).KeepsFrom reach inBound source) :
    (Parser.peekKind >>= next).KeepsFrom reach inBound source :=
  observe ⟨trivial, fun _ _ => trivial⟩ runWith_peekKind h

theorem kindAhead_bind {n : Nat} {next : Kind → Parser β}
    (h : (next (TokenSource.ahead source n).kind).KeepsFrom reach inBound source) :
    (Parser.kindAhead n >>= next).KeepsFrom reach inBound source :=
  observe ⟨trivial, fun _ _ => trivial⟩ (runWith_kindAhead n) h

end KeepsFrom

namespace Keeps

theorem pure {result : α} : (Pure.pure result : Parser α).Keeps inBound :=
  fun _ _ _ _ _ => trivial

theorem fail : (Parser.fail : Parser α).Keeps inBound :=
  fun _ _ _ _ _ => trivial

theorem advance : Parser.advance.Keeps inBound :=
  fun _ _ _ _ _ => trivial

theorem report (diagnostic : Diagnostic) : (Parser.report diagnostic).Keeps inBound :=
  fun _ _ _ _ _ => trivial

theorem look {n : Nat} : (Parser.look n).Keeps inBound :=
  fun _ _ _ _ _ => trivial

theorem peek : Parser.peek.Keeps inBound :=
  look

theorem members : (Parser.nested .members).Keeps inBound :=
  fun _ _ _ _ _ => trivial

theorem classMembers : (Parser.nested .classMembers).Keeps inBound :=
  fun _ _ _ _ _ => trivial

theorem block : (Parser.nested .block).Keeps inBound :=
  fun _ _ _ _ _ => trivial

theorem operand : (Parser.nested (.operand inBound)).Keeps inBound :=
  fun _ _ _ _ _ => rfl

theorem constraint : (Parser.nested (.constraint inBound)).Keeps inBound :=
  fun _ _ _ _ _ => rfl

theorem spanned {parser : Parser α} {make : α → Span → β}
    (hreads : (Parser.spanned make parser).Reads) (h : parser.Keeps inBound) :
    (Parser.spanned make parser).Keeps inBound :=
  fun _ _ _ _ _ => h.here.spanned hreads

section

variable {parser : Parser α} (h : parser.Keeps inBound)

include h

theorem bind {next : α → Parser β} (hnext : ∀ result, (next result).Keeps inBound) :
    (parser >>= next).Keeps inBound :=
  fun _ _ _ _ _ => h.here.bind hnext

theorem map {f : α → β} : (f <$> parser).Keeps inBound :=
  h.bind fun _ => pure

theorem withSpan {start? : Option Pos} (hreads : parser.Reads) :
    (Parser.withSpan start? parser).Keeps inBound :=
  fun _ _ _ _ _ => h.here.withSpan hreads

theorem attempt : parser.attempt.Keeps inBound :=
  h

theorem settle : parser.settle.Keeps inBound :=
  h

theorem optional : parser.optional.Keeps inBound :=
  h.settle.bind fun
    | .done _ => pure
    | .failed _ => pure

theorem ite {condition : Prop} [Decidable condition] {other : Parser α}
    (hother : other.Keeps inBound) : (if condition then parser else other).Keeps inBound := by
  split
  · exact h
  · exact hother

/-- One thing or another may be read before the rest. -/
theorem either {condition : Prop} [Decidable condition] {other : Parser α} {rest : α → Parser β}
    (hother : other.Keeps inBound) (hrest : ∀ result, (rest result).Keeps inBound) :
    (if condition then parser >>= fun result => rest result
      else other >>= fun result => rest result).Keeps inBound :=
  .ite (h.bind hrest) (hother.bind hrest)

theorem when {condition : Prop} [Decidable condition] {rest : Parser β}
    (hrest : rest.Keeps inBound) :
    (if condition then parser >>= fun _ => rest else rest).Keeps inBound :=
  .ite (h.bind fun _ => hrest) hrest

theorem elementOrStop : (Parser.elementOrStop parser).Keeps inBound :=
  h.optional.bind fun _ => pure

end

theorem peekKind : Parser.peekKind.Keeps inBound :=
  peek.bind fun _ => pure

theorem kindAhead {n : Nat} : (Parser.kindAhead n).Keeps inBound :=
  look.bind fun _ => pure

theorem nextIs {kind : Kind} : (Parser.nextIs kind).Keeps inBound :=
  peekKind.bind fun _ => pure

theorem atLineStart : Parser.atLineStart.Keeps inBound :=
  peek.bind fun _ => pure

theorem skipIf {kind : Kind} : (Parser.skipIf kind).Keeps inBound :=
  peekKind.bind fun _ => .ite (advance.bind fun _ => pure) pure

theorem reportHere {cause : Cause} : (Parser.reportHere cause).Keeps inBound :=
  peek.bind fun _ => report _

theorem refuse {cause : Kind → Cause} : (Parser.refuse cause : Parser α).Keeps inBound :=
  peek.bind fun _ => (report _).bind fun _ => fail

theorem expect {kind : Kind} : (Parser.expect kind).Keeps inBound :=
  peekKind.bind fun _ => .ite advance refuse

theorem expectOrReport {kind : Kind} : (Parser.expectOrReport kind).Keeps inBound :=
  expect.optional.bind fun _ => pure

theorem loop {init : β} {turn : β → Parser (Step β α)}
    (h : ∀ state, (turn state).Keeps inBound) : (Parser.loop init turn).Keeps inBound :=
  fun _ _ _ _ _ state _ => (h state).here

theorem collect {turn : Parser (Turn α)} (h : turn.Keeps inBound) :
    (Parser.collect turn).Keeps inBound :=
  loop fun _ => h.bind fun _ => pure

theorem commaSeparated {close : Kind} {element : Parser (Turn α)} (h : element.Keeps inBound) :
    (Parser.commaSeparated close element).Keeps inBound :=
  .collect <| peekKind.bind fun _ => .ite pure <| h.bind fun _ =>
    .ite (skipIf.bind fun _ => pure) pure

theorem afterEach {mark : Mark} {element : Parser α} (h : element.Keeps inBound) :
    (Parser.afterEach mark element).Keeps inBound :=
  .collect <| skipIf.bind fun _ => .ite h.elementOrStop pure

end Keeps

/-! ## Names and what is skipped -/

theorem readIdent_keeps : readIdent.Keeps inBound :=
  Keeps.advance.bind fun _ => .pure

theorem ident_keeps : ident.Keeps inBound :=
  Keeps.peekKind.bind fun _ => readIdent_keeps.ite .refuse

theorem anyIdent_keeps : anyIdent.Keeps inBound :=
  Keeps.peekKind.bind fun _ => readIdent_keeps.ite .refuse

theorem stringLit_keeps : stringLit.Keeps inBound :=
  Keeps.expect.bind fun _ => .pure

theorem moreSegments_keeps : moreSegments.Keeps inBound :=
  .collect <| Keeps.peekKind.bind fun _ => Keeps.kindAhead.bind fun _ =>
    .ite (Keeps.advance.bind fun _ => readIdent_keeps.bind fun _ => .pure) .pure

theorem entityName_keeps : entityName.Keeps inBound := by
  refine .spanned entityName_consumes <| Keeps.peekKind.bind fun _ => ?_
  split
  · exact readIdent_keeps.bind fun _ => moreSegments_keeps.bind fun _ => .pure
  · exact ident_keeps.bind fun _ => moreSegments_keeps.bind fun _ => .pure

theorem qualifier_keeps : qualifier.Keeps inBound :=
  .spanned qualifier_consumes <| anyIdent_keeps.bind fun _ => moreSegments_keeps.bind fun _ => .pure

theorem exportName_keeps : exportName.Keeps inBound :=
  Keeps.peekKind.bind fun _ => readIdent_keeps.ite anyIdent_keeps

theorem literal_keeps : literal.Keeps inBound := by
  refine Keeps.skipIf.bind fun _ => Keeps.advance.bind fun token => ?_
  dsimp only
  split
  · exact .pure
  · exact .fail

theorem keyExpr_keeps : keyExpr.Keeps inBound := by
  intro _ _ _ _ _
  refine .peekKind_bind ?_
  split
  next => exact Keeps.advance.here.bind fun _ => .pure
  next => exact Keeps.advance.here.bind fun _ => .pure
  next =>
    refine .ite (fun hname => .spanned ?_ ?_) fun _ => Keeps.refuse.here
    · exact readIdent_keeps.here.bind fun _ => moreSegments_keeps.bind fun _ => .pure
    · exact .spanned (.first (readIdent_consumes (Kind.ne_endOfText hname rfl)))

theorem propertyName_keeps : propertyName.Keeps inBound := by
  intro _ _ _ _ _
  refine .peek_bind ?_
  split
  next => exact Keeps.advance.here.bind fun _ => .pure
  next => exact Keeps.advance.here.bind fun _ => .pure
  next => exact Keeps.advance.here.bind fun _ => .pure
  next heq =>
    refine .spanned ?_ (.spanned (.first (.advance (heq ▸ nofun))))
    exact Keeps.advance.here.bind fun _ => keyExpr_keeps.bind fun _ =>
      Keeps.expect.bind fun _ => .pure
  next => exact Keeps.here (.ite (readIdent_keeps.bind fun _ => .pure) .refuse)

theorem skipGroup_keeps : skipGroup.Keeps inBound :=
  .loop fun _ => Keeps.peekKind.bind fun _ => .ite .pure <| Keeps.advance.bind fun _ =>
    .ite .pure (.ite .pure .pure)

theorem skipGroupsUntil_keeps (stop : Token → Bool) : (skipGroupsUntil stop).Keeps inBound :=
  .loop fun _ => Keeps.peek.bind fun _ => .ite .pure (skipGroup_keeps.bind fun _ => .pure)

theorem skipInitializer_keeps : skipInitializer.Keeps inBound :=
  .loop fun _ => Keeps.peek.bind fun _ => .ite .pure <|
    .ite (skipGroup_keeps.bind fun _ => .pure) <|
    .ite .pure (Keeps.advance.bind fun _ => .pure)

theorem skipBlockRest_keeps : skipBlockRest.Keeps inBound := by
  refine .loop fun _ => Keeps.advance.bind fun _ => ?_
  split
  all_goals exact .pure

theorem skipToStatement_keeps : skipToStatement.Keeps inBound := by
  refine .loop fun _ => Keeps.peek.bind fun _ => ?_
  split
  · exact .pure
  · exact .pure
  · exact Keeps.advance.bind fun _ => .pure
  · exact skipGroup_keeps.bind fun _ => .pure
  · exact .ite .pure (Keeps.advance.bind fun _ => .pure)

theorem recoverStatement_keeps (progress : Bool) : (recoverStatement progress).Keeps inBound := by
  refine Keeps.peekKind.bind fun _ => skipToStatement_keeps.ite <| Keeps.advance.bind fun _ => ?_
  split
  · exact .pure
  · exact skipBlockRest_keeps.bind fun _ => skipToStatement_keeps
  · exact skipToStatement_keeps

theorem skipToMember_keeps : skipToMember.Keeps inBound := by
  refine .loop fun _ => Keeps.peek.bind fun _ => ?_
  split
  · exact .pure
  · exact .pure
  · exact Keeps.advance.bind fun _ => .pure
  · exact Keeps.advance.bind fun _ => .pure
  · exact .ite .pure <| .ite (skipGroup_keeps.bind fun _ => .pure)
      (Keeps.advance.bind fun _ => .pure)

theorem recoverMember_keeps (progress : Bool) : (recoverMember progress).Keeps inBound := by
  refine Keeps.peekKind.bind fun _ => skipToMember_keeps.ite <| Keeps.advance.bind fun _ => ?_
  split
  · exact .pure
  · exact .pure
  · exact skipToMember_keeps

theorem endStatement_keeps : endStatement.Keeps inBound :=
  Keeps.peek.bind fun _ => .ite (Keeps.advance.bind fun _ => .pure) (.ite .pure .expectOrReport)

theorem skipBody_keeps : skipBody.Keeps inBound :=
  Keeps.peekKind.bind fun _ => .ite (Keeps.reportHere.bind fun _ => skipGroup_keeps) .pure

/-! ## Types -/

theorem type_keeps : type.Keeps inBound :=
  fun _ _ _ _ _ => trivial

theorem typeArgs_keeps : typeArgs.Keeps inBound :=
  Keeps.peek.bind fun _ => .ite (Keeps.advance.bind fun _ =>
    (Keeps.commaSeparated type_keeps.elementOrStop).bind fun _ =>
    Keeps.expectOrReport.bind fun _ => .pure) .pure

theorem typeRef_keeps : typeRef.Keeps inBound :=
  .spanned typeRef_consumes <| entityName_keeps.bind fun _ => typeArgs_keeps.bind fun _ => .pure

theorem typeAfter_keeps {kind : Kind} : (typeAfter kind).Keeps inBound :=
  Keeps.skipIf.bind fun _ => type_keeps.optional.ite .pure

theorem requiredTypeAfter_keeps {kind : Kind} : (requiredTypeAfter kind).Keeps inBound :=
  Keeps.skipIf.bind fun _ => .ite (type_keeps.bind fun _ => .pure) .pure

theorem variances_keeps : variances.Keeps inBound := by
  refine .collect <| Keeps.peekKind.bind fun _ => Keeps.kindAhead.bind fun _ => ?_
  split
  · exact .ite (Keeps.advance.bind fun _ => .pure) .pure
  · exact .pure

theorem typeParam_keeps : typeParam.Keeps inBound :=
  .spanned typeParam_consumes <| variances_keeps.bind fun _ => ident_keeps.bind fun _ =>
    typeAfter_keeps.bind fun _ => typeAfter_keeps.bind fun _ => .pure

theorem typeParams_keeps : typeParams.Keeps inBound :=
  Keeps.skipIf.bind fun _ => .ite
    ((Keeps.commaSeparated typeParam_keeps.elementOrStop).bind fun _ =>
      Keeps.expectOrReport.bind fun _ => .pure) .pure

theorem paramModifiers_keeps : paramModifiers.Keeps inBound := by
  refine Keeps.bind (.collect ?_) fun _ => .pure
  refine Keeps.peekKind.bind fun _ => Keeps.kindAhead.bind fun _ => ?_
  split
  · exact .ite (Keeps.advance.bind fun _ => .pure) .pure
  · exact .pure

theorem bindingName_keeps : bindingName.Keeps inBound := by
  intro _ _ _ _ _
  refine .peekKind_bind ?_
  split
  next heq => exact skipGroup_keeps.here.spanned (.spanned (skipGroup_consumes (heq ▸ nofun)))
  next heq => exact skipGroup_keeps.here.spanned (.spanned (skipGroup_consumes (heq ▸ nofun)))
  next => exact readIdent_keeps.here.bind fun _ => .pure
  next => exact ident_keeps.here.bind fun _ => .pure

theorem skipUnsupportedInitializer_keeps {cause : Cause} :
    (skipUnsupportedInitializer cause).Keeps inBound :=
  Keeps.peekKind.bind fun _ => .ite (Keeps.reportHere.bind fun _ =>
    Keeps.advance.bind fun _ => skipInitializer_keeps) .pure

theorem param_keeps : param.Keeps inBound :=
  .spanned param_consumes <| paramModifiers_keeps.bind fun _ => Keeps.skipIf.bind fun _ =>
    bindingName_keeps.bind fun _ => Keeps.skipIf.bind fun _ => typeAfter_keeps.bind fun _ =>
    skipUnsupportedInitializer_keeps.bind fun _ => .pure

theorem paramTurn_keeps : paramTurn.Keeps inBound := by
  refine param_keeps.optional.bind fun found => ?_
  cases found with
  | some => exact .pure
  | none => exact (skipGroupsUntil_keeps _).bind fun _ => .pure

theorem params_keeps : params.Keeps inBound :=
  Keeps.expect.bind fun _ => (Keeps.commaSeparated paramTurn_keeps).bind fun _ =>
    Keeps.expectOrReport.bind fun _ => .pure

theorem predicateSubject_keeps : predicateSubject.Keeps inBound :=
  Keeps.peekKind.bind fun _ => .ite (Keeps.advance.bind fun _ => .pure)
    (ident_keeps.bind fun _ => .pure)

theorem predicateRest_keeps (asserts : Bool) : (predicateRest asserts).Keeps inBound :=
  predicateSubject_keeps.bind fun _ => Keeps.peek.bind fun _ =>
    .ite (Keeps.advance.bind fun _ => type_keeps.bind fun _ => .pure) (.ite .pure .fail)

theorem predicate_keeps : predicate.Keeps inBound :=
  .spanned predicate_consumes <| Keeps.peekKind.bind fun _ => Keeps.kindAhead.bind fun _ => .ite
    (Keeps.advance.bind fun _ => Keeps.atLineStart.bind fun _ =>
      .ite .fail (predicateRest_keeps true)) (predicateRest_keeps false)

theorem resultType_keeps : resultType.Keeps inBound := by
  refine Keeps.peekKind.bind fun _ => Keeps.kindAhead.bind fun _ => ?_
  refine .ite (predicate_keeps.attempt.bind fun found => ?_) type_keeps
  cases found with
  | some => exact .pure
  | none => exact type_keeps

theorem functionTail_keeps (typeParams : List TypeParam) :
    (functionTail typeParams).Keeps inBound :=
  params_keeps.bind fun _ => Keeps.expect.bind fun _ => resultType_keeps.bind fun _ => .pure

theorem constructorType_keeps (isAbstract : Bool) : (constructorType isAbstract).Keeps inBound :=
  Keeps.expect.bind fun _ => typeParams_keeps.bind fun _ =>
    (functionTail_keeps _).bind fun _ => .pure

theorem abstractConstructorType_keeps : abstractConstructorType.Keeps inBound := by
  have hinner : (do let _ ← advance; constructorType true).Keeps inBound :=
    Keeps.advance.bind fun _ => constructorType_keeps true
  refine hinner.attempt.bind fun found => ?_
  cases found with
  | some => exact .pure
  | none => exact .refuse

theorem parenType_keeps : parenType.Keeps inBound := by
  refine (functionTail_keeps []).attempt.bind fun found => ?_
  cases found with
  | some => exact .pure
  | none =>
      exact Keeps.advance.bind fun _ => type_keeps.bind fun _ => Keeps.expectOrReport.bind fun _ =>
        .pure

theorem genericFunctionType_keeps : genericFunctionType.Keeps inBound := by
  have hinner : (do let typeParams ← typeParams; functionTail typeParams).Keeps inBound :=
    typeParams_keeps.bind functionTail_keeps
  refine hinner.attempt.bind fun found => ?_
  cases found with
  | some => exact .pure
  | none => exact .refuse

theorem signature_keeps : signature.Keeps inBound := by
  refine typeParams_keeps.bind fun _ => params_keeps.bind fun _ => Keeps.skipIf.bind fun _ => ?_
  split
  · exact resultType_keeps.optional.bind fun _ => .pure
  · exact Keeps.pure.bind fun _ => .pure

theorem plainElement_keeps : plainElement.Keeps inBound := by
  have hinner : (do let type ← type; return (type, ← skipIf (.mark .question))).Keeps inBound :=
    type_keeps.bind fun _ => Keeps.skipIf.bind fun _ => .pure
  exact (hinner.withSpan (.first type_consumes)).bind fun _ => .ite .pure .pure

theorem labelledElement_keeps : labelledElement.Keeps inBound := by
  refine .spanned labelledElement_consumes <| Keeps.skipIf.bind fun _ =>
    anyIdent_keeps.bind fun _ => Keeps.skipIf.bind fun _ => Keeps.expect.bind fun _ =>
    type_keeps.bind fun _ => ?_
  intro _ _ _ _ _
  refine .peekKind_bind <| .ite (fun heq => .bind (.withSpan Keeps.advance.here ?_) ?_)
    fun _ => Keeps.pure.here
  · exact .advance (heq ▸ nofun)
  · exact fun _ => (Keeps.report _).bind fun _ => .pure

theorem tupleElement_keeps : tupleElement.Keeps inBound :=
  Keeps.nextIs.bind fun _ => Keeps.bind
    (Keeps.kindAhead.bind fun _ => Keeps.kindAhead.bind fun _ => Keeps.kindAhead.bind fun _ => .pure)
    fun _ => labelledElement_keeps.ite plainElement_keeps

theorem tupleType_keeps : tupleType.Keeps inBound :=
  Keeps.advance.bind fun _ => (Keeps.commaSeparated tupleElement_keeps.elementOrStop).bind fun _ =>
    Keeps.expectOrReport.bind fun _ => .pure

theorem mappedModifier_keeps {kind : Kind} : (mappedModifier kind).Keeps inBound :=
  Keeps.peekKind.bind fun _ => .ite
    (Keeps.advance.bind fun _ => Keeps.expect.bind fun _ => .pure)
    (Keeps.skipIf.bind fun _ => .ite .pure .pure)

theorem mappedType_keeps : mappedType.Keeps inBound := by
  refine Keeps.expect.bind fun _ => mappedModifier_keeps.bind fun _ => Keeps.expect.bind fun _ =>
    ident_keeps.bind fun _ => Keeps.expect.bind fun _ => type_keeps.bind fun _ =>
    requiredTypeAfter_keeps.bind fun _ => Keeps.expect.bind fun _ =>
    mappedModifier_keeps.bind fun _ => requiredTypeAfter_keeps.bind fun _ =>
    Keeps.skipIf.bind fun _ => ?_
  have hrest {mapped : MappedTy} :
      (do let _ ← expect (.mark .closeBrace); return mapped).Keeps inBound :=
    Keeps.expect.bind fun _ => .pure
  exact .ite (Keeps.skipIf.bind fun _ => hrest) hrest

theorem braceType_keeps : braceType.Keeps inBound := by
  refine mappedType_keeps.attempt.bind fun found => ?_
  cases found with
  | some => exact .pure
  | none =>
      exact Keeps.advance.bind fun _ => Keeps.members.bind fun _ =>
        Keeps.expectOrReport.bind fun _ => .pure

theorem templateRest_keeps : templateRest.Keeps inBound := by
  refine .map <| .collect <| type_keeps.bind fun _ => Keeps.peek.bind fun _ => ?_
  split
  · exact Keeps.advance.bind fun _ => .pure
  · exact Keeps.advance.bind fun _ => .pure
  · exact Keeps.reportHere.bind fun _ => .pure

theorem templateType_keeps : templateType.Keeps inBound :=
  Keeps.advance.bind fun _ => .ite (templateRest_keeps.bind fun _ => .pure)
    (Keeps.pure.bind fun _ => .pure)

theorem importType_keeps : importType.Keeps inBound :=
  Keeps.expect.bind fun _ => Keeps.expect.bind fun _ => stringLit_keeps.bind fun _ =>
    Keeps.expect.bind fun _ => Keeps.skipIf.bind fun _ => .ite
      (qualifier_keeps.map.bind fun _ => typeArgs_keeps.bind fun _ => .pure)
      (Keeps.pure.bind fun _ => typeArgs_keeps.bind fun _ => .pure)

theorem queryType_keeps : queryType.Keeps inBound :=
  Keeps.advance.bind fun _ => Keeps.peekKind.bind fun _ => .ite
    (importType_keeps.map.bind fun _ => typeArgs_keeps.bind fun _ => .pure)
    (entityName_keeps.map.bind fun _ => typeArgs_keeps.bind fun _ => .pure)

theorem namedType_keeps : namedType.Keeps inBound :=
  Keeps.peek.bind fun _ => Keeps.kindAhead.bind fun _ =>
    .ite (Keeps.advance.bind fun _ => .pure) (typeRef_keeps.map.ite .refuse)

theorem negativeType_keeps : negativeType.Keeps inBound :=
  Keeps.kindAhead.bind fun _ =>
    .ite (Keeps.advance.bind fun _ => Keeps.advance.bind fun _ => .pure) .refuse

theorem primaryKind_keeps : primaryKind.Keeps inBound := by
  have hsingle {kind : TyKind} : (do let _ ← advance; return kind).Keeps inBound :=
    Keeps.advance.bind fun _ => .pure
  refine Keeps.peek.bind fun _ => ?_
  split
  · exact hsingle
  · split
    · exact hsingle
    · exact hsingle
    · exact hsingle
    · exact hsingle
    · exact hsingle
    · exact negativeType_keeps
    · exact templateType_keeps
    · exact templateType_keeps
    · exact hsingle
    · exact parenType_keeps
    · exact genericFunctionType_keeps
    · exact constructorType_keeps false
    · exact abstractConstructorType_keeps
    · exact tupleType_keeps
    · exact braceType_keeps
    · exact queryType_keeps
    · exact importType_keeps.map
    · exact Keeps.advance.bind fun _ => type_keeps.bind fun _ => .pure
    · exact namedType_keeps

theorem suffix_keeps : suffix.Keeps inBound := by
  refine Keeps.advance.bind fun _ => Keeps.skipIf.bind fun _ => .ite .pure ?_
  refine type_keeps.optional.bind fun found => ?_
  cases found with
  | some => exact Keeps.expectOrReport.bind fun _ => .pure
  | none => exact .pure

theorem suffixTurn_keeps (type : Ty) : (suffixTurn type).Keeps inBound := by
  intro _ _ _ _ _
  refine .peek_bind <| .ite (fun hbracket => ?_) fun _ => Keeps.pure.here
  obtain ⟨heq, -⟩ := Bool.and_eq_true_iff.mp hbracket
  refine .bind (.withSpan suffix_keeps.here ?_) fun (suffix, span) => ?_
  · exact suffix_consumes (of_decide_eq_true heq ▸ nofun)
  · cases suffix <;> exact .pure

theorem suffixedType_keeps : suffixedType.Keeps inBound :=
  (primaryKind_keeps.spanned (.spanned primaryKind_consumes)).bind fun _ => .loop suffixTurn_keeps

theorem inferredType_keeps : (inferredType inBound).Keeps inBound :=
  Keeps.advance.bind fun _ => ident_keeps.bind fun _ => Keeps.peekKind.bind fun _ =>
    .ite (Keeps.constraint.bind fun _ => .pure) .pure

/-- The operand stands in the bound if the operator does. -/
theorem operatorType_keeps (inBound : Bool) : (operatorType inBound).Keeps inBound := by
  intro _ _ _ _ _
  refine .peekKind_bind <| .kindAhead_bind ?_
  refine .ite (fun heq => ?_) fun _ => .ite (fun heq => ?_) fun _ => .ite (fun heq => ?_) fun _ =>
    Keeps.here <| .ite (inferredType_keeps.spanned (.spanned (inferredType_consumes inBound)))
      suffixedType_keeps
  · refine .spanned ?_ (.spanned (.first (.advance (heq ▸ nofun))))
    exact Keeps.advance.here.bind fun _ => Keeps.operand.bind fun _ => .pure
  · obtain ⟨heq, -⟩ := Bool.and_eq_true_iff.mp heq
    refine .spanned ?_ (.spanned (.first (.advance (of_decide_eq_true heq ▸ nofun))))
    exact Keeps.advance.here.bind fun _ => Keeps.advance.bind fun _ => .pure
  · obtain ⟨heq, -⟩ := Bool.and_eq_true_iff.mp heq
    refine .spanned ?_ (.spanned (.first (.advance (of_decide_eq_true heq ▸ nofun))))
    exact Keeps.advance.here.bind fun _ => Keeps.operand.bind fun _ => .pure

theorem operands_keeps {mark : Mark} {wrap : List Ty → TyKind} {operand : Parser Ty}
    (hreads : operand.Reads) (h : operand.Keeps inBound) :
    (operands mark wrap operand).Keeps inBound := by
  have hwhole : (operands mark wrap operand).Reads := operands_consumes fun _ => hreads
  unfold operands at hwhole ⊢
  exact .spanned hwhole <| Keeps.skipIf.bind fun _ => h.bind fun _ => Keeps.nextIs.bind fun _ =>
    .ite ((Keeps.afterEach h).bind fun _ => .pure) .pure

theorem unionType_keeps (inBound : Bool) : (unionType inBound).Keeps inBound :=
  operands_keeps (operands_consumes fun _ => operatorType_consumes inBound) <|
    operands_keeps (operatorType_consumes inBound) (operatorType_keeps inBound)

/-! ## Members -/

theorem modifierFollowed_keeps : modifierFollowed.Keeps inBound :=
  Keeps.look.bind fun _ => .pure

theorem indexHead_keeps : indexHead.Keeps inBound :=
  Keeps.expect.bind fun _ => ident_keeps.bind fun _ => Keeps.expect.bind fun _ =>
    type_keeps.bind fun _ => Keeps.expect.bind fun _ => .pure

theorem indexSignature?_keeps (readonly : Bool) : (indexSignature? readonly).Keeps inBound := by
  refine Keeps.peekKind.bind fun _ => .ite (indexHead_keeps.attempt.bind fun found => ?_) .pure
  cases found with
  | some => exact Keeps.expect.bind fun _ => type_keeps.bind fun _ => .pure
  | none => exact .pure

theorem accessorHead_keeps : accessorHead.Keeps inBound :=
  Keeps.advance.bind fun _ => Keeps.atLineStart.bind fun _ => .when .fail <|
    propertyName_keeps.bind fun _ => Keeps.peekKind.bind fun _ => .ite .pure .fail

theorem getterRest_keeps (key : PropertyName) : (getterRest key).Keeps inBound := by
  refine (params_keeps.withSpan params_consumes).bind fun (params, _) => ?_
  exact .when (.report _) <| typeAfter_keeps.bind fun _ => .pure

theorem setterRest_keeps (key : PropertyName) : (setterRest key).Keeps inBound := by
  refine (params_keeps.withSpan params_consumes).bind fun (params, _) => ?_
  cases params with
  | nil => exact (Keeps.report _).bind fun _ => .fail
  | cons =>
      refine .when (.report _) <| Keeps.peekKind.bind fun _ => .ite ?_ .pure
      exact Keeps.reportHere.bind fun _ => Keeps.advance.bind fun _ =>
        type_keeps.optional.bind fun _ => .pure

theorem accessor?_keeps : accessor?.Keeps inBound := by
  refine Keeps.peekKind.bind fun _ => .ite (accessorHead_keeps.attempt.bind fun found => ?_) .pure
  cases found with
  | some => exact .map <| (getterRest_keeps _).ite (setterRest_keeps _)
  | none => exact .pure

theorem namedMember_keeps (readonly : Bool) : (namedMember readonly).Keeps inBound :=
  propertyName_keeps.bind fun _ => Keeps.skipIf.bind fun _ => Keeps.peekKind.bind fun _ =>
    .ite (signature_keeps.bind fun _ => .pure) (typeAfter_keeps.bind fun _ => .pure)

theorem keyedMember_keeps : keyedMember.Keeps inBound := by
  refine Keeps.peekKind.bind fun _ => modifierFollowed_keeps.bind fun _ => .when .advance ?_
  refine (indexSignature?_keeps _).bind fun index? => ?_
  cases index? with
  | some => exact .pure
  | none =>
      refine accessor?_keeps.bind fun accessor? => ?_
      cases accessor? with
      | some accessor => cases accessor <;> exact .pure
      | none => exact namedMember_keeps _

theorem member_keeps : member.Keeps inBound :=
  .spanned member_consumes <| Keeps.peekKind.bind fun _ => Keeps.kindAhead.bind fun _ =>
    .ite (signature_keeps.bind fun _ => .pure) <|
    .ite (Keeps.advance.bind fun _ => signature_keeps.bind fun _ => .pure) keyedMember_keeps

theorem endMember_keeps : endMember.Keeps inBound :=
  Keeps.peek.bind fun _ => .ite (Keeps.advance.bind fun _ => .pure) <|
    .ite .pure ((Keeps.report _).bind fun _ => .pure)

theorem memberList_keeps {skips : Kind → Bool} {element : Parser α} (h : element.Keeps inBound) :
    (memberList skips element).Keeps inBound := by
  refine .collect <| Keeps.peekKind.bind fun _ => .ite .pure <|
    .ite (Keeps.advance.bind fun _ => .pure) <| h.settle.bind fun found => ?_
  cases found with
  | done => exact endMember_keeps.bind fun _ => .when (recoverMember_keeps _) .pure
  | failed progress => exact (recoverMember_keeps progress).bind fun _ => .pure

theorem members_keeps : members.Keeps inBound :=
  memberList_keeps member_keeps

theorem classModifiers_keeps : classModifiers.Keeps inBound := by
  refine .loop fun _ => Keeps.peekKind.bind fun _ => ?_
  split
  · exact modifierFollowed_keeps.bind fun _ =>
      .ite (.when .reportHere <| Keeps.advance.bind fun _ => .pure) .pure
  · exact .pure

theorem constructorFollows_keeps : constructorFollows.Keeps inBound :=
  Keeps.peek.bind fun _ => Keeps.kindAhead.bind fun _ => .pure

theorem namedClassMember_keeps : namedClassMember.Keeps inBound :=
  propertyName_keeps.bind fun _ => Keeps.skipIf.bind fun _ => .when .skipIf <|
    Keeps.peekKind.bind fun _ => .ite
      (signature_keeps.bind fun _ => skipBody_keeps.bind fun _ => .pure)
      (typeAfter_keeps.bind fun _ => skipUnsupportedInitializer_keeps.bind fun _ => .pure)

theorem classMemberKind_keeps (modifiers : Modifiers) :
    (classMemberKind modifiers).Keeps inBound := by
  refine Keeps.peekKind.bind fun _ =>
    .ite (Keeps.reportHere.bind fun _ => skipGroup_keeps.bind fun _ => .fail) ?_
  refine constructorFollows_keeps.bind fun _ => .ite (Keeps.advance.bind fun _ =>
    signature_keeps.bind fun _ => skipBody_keeps.bind fun _ => .pure) ?_
  refine (indexSignature?_keeps _).bind fun index? => ?_
  cases index? with
  | some => exact .pure
  | none =>
      refine accessor?_keeps.bind fun accessor? => ?_
      cases accessor? with
      | some accessor => cases accessor <;> exact skipBody_keeps.bind fun _ => .pure
      | none => exact namedClassMember_keeps

theorem classMember_keeps : classMember.Keeps inBound :=
  .spanned classMember_consumes <| classModifiers_keeps.bind fun _ =>
    (classMemberKind_keeps _).bind fun _ => .pure

theorem classMembers_keeps : classMembers.Keeps inBound :=
  memberList_keeps classMember_keeps

/-! ## Declarations -/

theorem literalInitializer_keeps : literalInitializer.Keeps inBound := by
  refine literal_keeps.bind fun _ => Keeps.peek.bind fun _ => ?_
  split
  · exact .pure
  · exact .pure
  · exact .pure
  · exact .pure
  · exact .ite .pure .fail

theorem initializer_keeps (kind : VarKind) : (initializer kind).Keeps inBound := by
  refine literalInitializer_keeps.attempt.bind fun found => ?_
  cases found with
  | some => exact .ite .pure ((Keeps.report _).bind fun _ => .pure)
  | none => exact Keeps.reportHere.bind fun _ => skipInitializer_keeps.bind fun _ => .pure

theorem declarator_keeps (kind : VarKind) : (declarator kind).Keeps inBound :=
  .spanned (declarator_consumes kind) <| ident_keeps.bind fun _ => Keeps.skipIf.bind fun _ =>
    typeAfter_keeps.bind fun _ => Keeps.skipIf.bind fun _ =>
    .either (initializer_keeps kind) .pure fun _ => .pure

theorem varDecl_keeps (kind : VarKind) : (varDecl kind).Keeps inBound :=
  Keeps.advance.bind fun _ => Keeps.bind
    (.collect <| (declarator_keeps kind).bind fun _ => Keeps.skipIf.bind fun _ => .pure)
    fun _ => endStatement_keeps.bind fun _ => .pure

theorem functionDecl_keeps (anonymous : Bool) : (functionDecl anonymous).Keeps inBound :=
  Keeps.advance.bind fun _ => Keeps.peekKind.bind fun _ => .either .pure ident_keeps fun _ =>
    signature_keeps.bind fun _ => Keeps.peekKind.bind fun _ =>
    .either skipBody_keeps endStatement_keeps fun _ => .pure

theorem heritage_keeps : heritage.Keeps inBound := by
  refine .collect <| typeRef_keeps.optional.bind fun found => ?_
  cases found with
  | some => exact Keeps.skipIf.bind fun _ => .pure
  | none => exact .pure

theorem braced_keeps {body : Parser α} (h : body.Keeps inBound) : (braced body).Keeps inBound :=
  Keeps.expect.bind fun _ => h.bind fun _ => Keeps.expectOrReport.bind fun _ => .pure

theorem classDecl_keeps (isAbstract anonymous : Bool) :
    (classDecl isAbstract anonymous).Keeps inBound :=
  Keeps.advance.bind fun _ => Keeps.peekKind.bind fun _ =>
    .either ident_keeps.map .pure fun _ => typeParams_keeps.bind fun _ =>
    Keeps.skipIf.bind fun _ => .either typeRef_keeps.optional .pure fun _ =>
    Keeps.skipIf.bind fun _ => .either heritage_keeps .pure fun _ =>
    (braced_keeps .classMembers).bind fun _ => .pure

theorem interfaceDecl_keeps : interfaceDecl.Keeps inBound :=
  Keeps.advance.bind fun _ => ident_keeps.bind fun _ => typeParams_keeps.bind fun _ =>
    Keeps.skipIf.bind fun _ => .either heritage_keeps .pure fun _ =>
    (braced_keeps .members).bind fun _ => .pure

theorem typeAlias_keeps : typeAlias.Keeps inBound :=
  Keeps.advance.bind fun _ => ident_keeps.bind fun _ => typeParams_keeps.bind fun _ =>
    Keeps.expect.bind fun _ => type_keeps.bind fun _ => endStatement_keeps.bind fun _ => .pure

theorem enumLiteral_keeps : enumLiteral.Keeps inBound :=
  literal_keeps.bind fun _ => Keeps.peekKind.bind fun _ => .ite .pure .fail

theorem enumInitializer_keeps : enumInitializer.Keeps inBound := by
  refine enumLiteral_keeps.attempt.bind fun found => ?_
  cases found with
  | some => exact .pure
  | none => exact Keeps.reportHere.bind fun _ => skipInitializer_keeps.bind fun _ => .pure

theorem enumMember_keeps : enumMember.Keeps inBound :=
  .spanned enumMember_consumes <| propertyName_keeps.bind fun _ => Keeps.skipIf.bind fun _ =>
    .either enumInitializer_keeps .pure fun _ => .pure

theorem enumMember?_keeps : enumMember?.Keeps inBound := by
  refine enumMember_keeps.settle.bind fun found => ?_
  cases found with
  | done => exact .pure
  | failed => exact .when .advance <| (skipGroupsUntil_keeps _).bind fun _ => .pure

theorem enumDecl_keeps (isConst : Bool) : (enumDecl isConst).Keeps inBound :=
  Keeps.advance.bind fun _ => ident_keeps.bind fun _ =>
    (braced_keeps (.commaSeparated <| enumMember?_keeps.bind fun _ => .pure)).bind fun _ => .pure

theorem block_keeps : block.Keeps inBound := by
  refine Keeps.expect.optional.bind fun opened => ?_
  cases opened with
  | some => exact .block
  | none => exact .pure

theorem namespaceDecl_keeps : namespaceDecl.Keeps inBound := by
  have hrest : (collect do
      if ← skipIf (.mark .dot) then return ⟨some (← ident), true⟩
      else return ⟨none, false⟩).Keeps inBound :=
    .collect <| Keeps.skipIf.bind fun _ => .ite (ident_keeps.bind fun _ => .pure) .pure
  exact Keeps.bind (.spanned (.spanned (.first ident_consumes)) <|
      ident_keeps.bind fun _ => hrest.bind fun _ => .pure) fun _ =>
    block_keeps.bind fun _ => .pure

theorem ambientModule_keeps : ambientModule.Keeps inBound :=
  stringLit_keeps.bind fun _ => Keeps.peekKind.bind fun _ =>
    .ite (block_keeps.bind fun _ => .pure) (endStatement_keeps.bind fun _ => .pure)

theorem requireAmbient_keeps (ambient : Bool) (declaration : RuntimeDeclaration) :
    (requireAmbient ambient declaration).Keeps inBound :=
  .ite .reportHere .pure

theorem variableStatement_keeps (ambient : Bool) (kind : VarKind) :
    (variableStatement ambient kind).Keeps inBound :=
  (requireAmbient_keeps _ _).bind fun _ => (varDecl_keeps kind).bind fun _ => .pure

theorem functionStatement_keeps (ambient async anonymous : Bool) :
    (functionStatement ambient async anonymous).Keeps inBound :=
  (requireAmbient_keeps _ _).bind fun _ => .when .advance <|
    (functionDecl_keeps anonymous).bind fun _ => .pure

theorem classStatement_keeps (ambient isAbstract anonymous : Bool) :
    (classStatement ambient isAbstract anonymous).Keeps inBound :=
  (requireAmbient_keeps _ _).bind fun _ => .when .advance <|
    (classDecl_keeps isAbstract anonymous).bind fun _ => .pure

theorem declarationKind_keeps (ambient anonymous : Bool) :
    (declarationKind ambient anonymous).Keeps inBound := by
  have henum {isConst : Bool} :
      (do return StatementKind.enum (← enumDecl isConst)).Keeps inBound :=
    (enumDecl_keeps isConst).bind fun _ => .pure
  refine Keeps.peekKind.bind fun _ => Keeps.kindAhead.bind fun _ => ?_
  dsimp only
  split
  · exact variableStatement_keeps ambient .var
  · exact variableStatement_keeps ambient .let
  · exact .ite (Keeps.advance.bind fun _ => henum) (variableStatement_keeps ambient .const)
  · exact functionStatement_keeps ambient false anonymous
  · exact (functionStatement_keeps ambient true anonymous).ite .refuse
  · exact classStatement_keeps ambient false anonymous
  · exact (classStatement_keeps ambient true anonymous).ite .refuse
  · exact interfaceDecl_keeps.bind fun _ => .pure
  · exact .ite (typeAlias_keeps.bind fun _ => .pure) .refuse
  · exact henum
  · exact Keeps.advance.bind fun _ => namespaceDecl_keeps
  · exact Keeps.advance.bind fun _ => ambientModule_keeps.ite namespaceDecl_keeps
  · exact .ite (Keeps.advance.bind fun _ => block_keeps.bind fun _ => .pure) .refuse
  · exact .refuse

theorem declaration_keeps (ambient anonymous : Bool) :
    (declaration ambient anonymous).Keeps inBound :=
  (declarationKind_keeps ambient anonymous).spanned (declaration_consumes ambient anonymous)

theorem ambientDeclaration_keeps : ambientDeclaration.Keeps inBound :=
  .spanned ambientDeclaration_consumes <| Keeps.advance.bind fun _ => declaration_keeps true false

/-! ## Imports and exports -/

theorem specifierTypeOnly_keeps : specifierTypeOnly.Keeps inBound :=
  Keeps.peekKind.bind fun _ => Keeps.kindAhead.bind fun _ => Keeps.kindAhead.bind fun _ =>
    .ite .pure (.ite .pure .pure)

theorem specifiers_keeps {specifier : Bool → Parser (Span → α)}
    (hreads : ∀ typeOnly, (specifier typeOnly).Reads)
    (h : ∀ typeOnly, (specifier typeOnly).Keeps inBound) :
    (specifiers specifier).Keeps inBound := by
  refine Keeps.expect.bind fun _ => Keeps.bind (.commaSeparated ?_) fun _ =>
    Keeps.expect.bind fun _ => .pure
  refine Keeps.bind (.spanned (.spanned ?_) ?_) fun _ => .pure
  · exact .next fun typeOnly _ => .when fun _ => hreads typeOnly
  · exact specifierTypeOnly_keeps.bind fun typeOnly => .when .advance (h typeOnly)

theorem skipImportAttributes_keeps : skipImportAttributes.Keeps inBound :=
  Keeps.peek.bind fun _ => Keeps.kindAhead.bind fun _ =>
    .ite (Keeps.advance.bind fun _ => skipGroup_keeps) .pure

theorem moduleSpecifier_keeps : moduleSpecifier.Keeps inBound :=
  stringLit_keeps.bind fun _ => skipImportAttributes_keeps.bind fun _ => .pure

theorem importSpecifier_keeps (typeOnly : Bool) : (importSpecifier typeOnly).Keeps inBound :=
  exportName_keeps.bind fun _ => Keeps.skipIf.bind fun _ =>
    .either ident_keeps .pure fun _ => .pure

theorem importBindings_keeps : importBindings.Keeps inBound :=
  Keeps.skipIf.bind fun _ => .ite
    (Keeps.expect.bind fun _ => ident_keeps.bind fun _ => .pure)
    ((specifiers_keeps (importSpecifier_consumes ·) importSpecifier_keeps).bind fun _ => .pure)

theorem importTarget_keeps : importTarget.Keeps inBound :=
  Keeps.peek.bind fun _ => Keeps.kindAhead.bind fun _ => .ite
    (Keeps.advance.bind fun _ => Keeps.advance.bind fun _ => stringLit_keeps.bind fun _ =>
      Keeps.expect.bind fun _ => .pure)
    (entityName_keeps.bind fun _ => .pure)

theorem importClause_keeps : importClause.Keeps inBound :=
  Keeps.peekKind.bind fun _ => .either ident_keeps.map .pure fun _ =>
    .either .pure .skipIf fun _ => .either importBindings_keeps.map .pure fun _ =>
    Keeps.expect.bind fun _ => moduleSpecifier_keeps.bind fun _ => .pure

theorem importTypeOnly_keeps : importTypeOnly.Keeps inBound :=
  Keeps.peekKind.bind fun _ => Keeps.kindAhead.bind fun _ => .pure

theorem importKind_keeps : importKind.Keeps inBound :=
  Keeps.peekKind.bind fun _ => Keeps.kindAhead.bind fun _ =>
    .ite (moduleSpecifier_keeps.bind fun _ => .pure) <|
    .ite (ident_keeps.bind fun _ => Keeps.advance.bind fun _ =>
      importTarget_keeps.bind fun _ => .pure) importClause_keeps

theorem importStatement_keeps : importStatement.Keeps inBound :=
  .spanned importStatement_consumes <| Keeps.advance.bind fun _ =>
    importTypeOnly_keeps.bind fun _ => .when .advance <| importKind_keeps.bind fun _ =>
    endStatement_keeps.bind fun _ => .pure

theorem exportSpecifier_keeps (typeOnly : Bool) : (exportSpecifier typeOnly).Keeps inBound :=
  exportName_keeps.bind fun _ => Keeps.skipIf.bind fun _ =>
    .either exportName_keeps.map .pure fun _ => .pure

theorem namedExports_keeps (typeOnly : Bool) : (namedExports typeOnly).Keeps inBound :=
  (specifiers_keeps (exportSpecifier_consumes ·) exportSpecifier_keeps).bind fun _ =>
    Keeps.skipIf.bind fun _ => .either moduleSpecifier_keeps.map .pure fun _ =>
    endStatement_keeps.bind fun _ => .pure

theorem exportAll_keeps (typeOnly : Bool) : (exportAll typeOnly).Keeps inBound :=
  Keeps.advance.bind fun _ => Keeps.skipIf.bind fun _ =>
    .either exportName_keeps.map .pure fun _ => Keeps.expect.bind fun _ =>
    moduleSpecifier_keeps.bind fun _ => endStatement_keeps.bind fun _ => .pure

theorem defaultExport_keeps : defaultExport.Keeps inBound :=
  Keeps.peekKind.bind fun _ => Keeps.kindAhead.bind fun _ =>
    .ite ((declaration_keeps true true).bind fun _ => .pure) <|
    .ite (entityName_keeps.bind fun _ => endStatement_keeps.bind fun _ => .pure)
      (Keeps.reportHere.bind fun _ => skipInitializer_keeps.bind fun _ =>
        endStatement_keeps.bind fun _ => .fail)

theorem exported_keeps : exported.Keeps inBound := by
  refine Keeps.peekKind.bind fun _ => Keeps.kindAhead.bind fun _ => ?_
  split
  · exact Keeps.advance.bind fun _ => entityName_keeps.bind fun _ =>
      endStatement_keeps.bind fun _ => .pure
  · exact Keeps.advance.bind fun _ => Keeps.expect.bind fun _ => ident_keeps.bind fun _ =>
      endStatement_keeps.bind fun _ => .pure
  · exact Keeps.advance.bind fun _ => defaultExport_keeps
  · exact exportAll_keeps false
  · exact namedExports_keeps false
  · exact .ite (Keeps.advance.bind fun _ => namedExports_keeps true) <|
      .ite (Keeps.advance.bind fun _ => exportAll_keeps true) (declaration_keeps true false).map
  · exact importStatement_keeps.map
  · exact ambientDeclaration_keeps.map
  · exact (declaration_keeps true false).map

theorem exportStatement_keeps : exportStatement.Keeps inBound :=
  .spanned exportStatement_consumes <| Keeps.advance.bind fun _ => exported_keeps

/-! ## Statements -/

theorem statement_keeps (ambient : Bool) : (statement ambient).Keeps inBound := by
  refine Keeps.peekKind.bind fun _ => Keeps.kindAhead.bind fun _ => ?_
  split
  · exact ambientDeclaration_keeps
  · exact exportStatement_keeps
  · exact (declaration_keeps ambient false).ite importStatement_keeps
  · exact declaration_keeps ambient false

theorem statementTurn_keeps (ambient : Bool) (close : Kind) :
    (statementTurn ambient close).Keeps inBound := by
  refine Keeps.peekKind.bind fun _ => .ite .pure <|
    .ite (Keeps.advance.bind fun _ => .pure) <| (statement_keeps ambient).settle.bind fun found => ?_
  cases found with
  | done => exact .pure
  | failed progress => exact (recoverStatement_keeps progress).bind fun _ => .pure

theorem statements_keeps (ambient : Bool) (close : Kind) :
    (statements ambient close).Keeps inBound :=
  .collect (statementTurn_keeps ambient close)

theorem tooDeep_keeps {limit : Nat} : (refusal.tooDeep limit : Parser α).Keeps inBound :=
  .refuse

/-- What is done where no level is left reaches no goals at all. -/
theorem refusal_keeps (limit : Nat) (goal : Goal) : (refusal limit goal).Keeps inBound := by
  cases goal with
  | type | operand | constraint => exact tooDeep_keeps
  | members | classMembers =>
      exact Keeps.reportHere.bind fun _ => (skipGroupsUntil_keeps _).bind fun _ => .pure
  | block => exact Keeps.reportHere.bind fun _ => skipBlockRest_keeps.bind fun _ => .pure

end Parser
end DeclFile
