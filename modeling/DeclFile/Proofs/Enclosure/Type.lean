import DeclFile.Proofs.Enclosure.Name

/-! # Types in a stretch

A type may be given up at any of its tokens, and still none of its parsers leaves the stretch
that it began in. Behind an opening bracket it is known that there may be groups, so any word may
be read there and any group skipped. Braces open a stretch of their own.
-/

namespace DeclFile.Parser

open Enclosure

variable {α : Type} {E : Enclosure} {home : E.Home} {place : Place} {source : TokenStream}

section

variable [place.Encloses E]

theorem type_stays : type.Stays home place source :=
  Place.Encloses.type

/-! ## Parameters -/

theorem typeArgs_stays : typeArgs.Stays home place source := by
  refine .observe .peek ?_
  split
  next h =>
    simp only [Bool.and_eq_true, decide_eq_true_eq] at h
    refine .opening_bind h.1 (.inr rfl) rfl fun _ => ?_
    exact .bind (commaSeparated_stays fun _ => elementOrStop_stays type_stays) fun _ _ =>
      .bind (.expectOrReport rfl) fun _ _ => .idle
  next => exact .idle

theorem typeRef_stays : typeRef.Stays home place source :=
  .spanned <| .bind entityName_stays fun _ _ => .bind typeArgs_stays fun _ _ => .idle

omit [place.Encloses E] in
theorem variances_stays : variances.Stays home place source := by
  refine .collect_evenly fun source => .observe .peekKind <| .observe (.kindAhead 1) ?_
  split
  next keyword heq =>
    split
    next h =>
      refine .common_bind ?_ .idle
      simp only [Bool.and_eq_true, Bool.or_eq_true, decide_eq_true_eq] at h
      rw [heq]
      obtain ((rfl | rfl) | rfl) := h.1 <;> rfl
    next => exact .idle
  next => exact .idle

theorem typeAfter_stays {kind : Kind} (h : kind.isCommon = true) :
    (typeAfter kind).Stays home place source := by
  refine .bind (.skipIf h) fun found _ => ?_
  split
  · exact .optional type_stays
  · exact .idle

theorem requiredTypeAfter_stays {kind : Kind} (h : kind.isCommon = true) :
    (requiredTypeAfter kind).Stays home place source := by
  refine .bind (.skipIf h) fun found _ => ?_
  split
  · exact .bind type_stays fun _ _ => .idle
  · exact .idle

theorem typeParam_stays : typeParam.Stays home place source :=
  .spanned <| .bind variances_stays fun _ _ => .bind ident_stays fun _ _ =>
    .bind (typeAfter_stays rfl) fun _ _ => .bind (typeAfter_stays rfl) fun _ _ => .idle

theorem typeParams_stays : typeParams.Stays home place source := by
  refine .bind (.skipIf rfl) fun found _ => ?_
  split
  · exact .bind (commaSeparated_stays fun _ => elementOrStop_stays typeParam_stays)
      fun _ _ => .bind (.expectOrReport rfl) fun _ _ => .idle
  · exact .idle

omit [place.Encloses E] in
theorem isCommon_of_paramModifier {kind : Kind} {modifier : Modifier}
    (h : paramModifier? kind = some modifier) : kind.isCommon = true := by
  unfold paramModifier? at h
  split at h
  all_goals first | rfl | cases h

omit [place.Encloses E] in
theorem paramModifiers_stays : paramModifiers.Stays home place source := by
  refine .bind (.collect_evenly fun source => ?_) fun _ _ => .idle
  refine .observe .peekKind <| .observe (.kindAhead 1) ?_
  split
  next h =>
    split
    · exact .common_bind (isCommon_of_paramModifier h) .idle
    · exact .idle
  next => exact .idle

omit [place.Encloses E] in
theorem bindingName_stays : bindingName.Stays home place source := by
  refine .observe .peekKind ?_
  split
  next h => exact .spanned (skipGroup_stays (.inl (h ▸ rfl)))
  next h => exact .spanned (skipGroup_stays (.inl (h ▸ rfl)))
  next h => exact .bind (readIdent_stays (h ▸ rfl)) fun _ _ => .idle
  next => exact .bind ident_stays fun _ _ => .idle

omit [place.Encloses E] in
theorem skipUnsupportedInitializer_stays (hgrouped : E.Grouped) (cause : Cause) :
    (skipUnsupportedInitializer cause).Stays home place source := by
  refine .observe .peekKind ?_
  split
  next h =>
    exact .reportHere_bind fun _ => .common_bind (h ▸ rfl) (skipInitializer_stays (.inl hgrouped))
  next => exact .idle

theorem param_stays (hgrouped : E.Grouped) : param.Stays home place source :=
  .spanned <| .bind paramModifiers_stays fun _ _ => .bind (.skipIf rfl) fun _ _ =>
    .bind bindingName_stays fun _ _ => .bind (.skipIf rfl) fun _ _ =>
    .bind (typeAfter_stays rfl) fun _ _ =>
    .bind (skipUnsupportedInitializer_stays hgrouped _) fun _ _ => .idle

/-- A parameter that is broken is skipped up to a closing brace at the furthest. -/
theorem paramTurn_stays (hgrouped : E.Grouped) : paramTurn.Stays home place source := by
  refine .optional_bind (param_stays hgrouped) (fun _ _ => .idle) fun _ => ?_
  refine .bind (skipGroupsUntil_stays hgrouped fun token h => ?_) fun _ _ => .idle
  simp [endsParam, h]

theorem params_stays : params.Stays home place source :=
  .expect_opening_bind (.inl rfl) rfl (fun _ => id) fun hgrouped _ _ =>
    .bind (commaSeparated_stays fun _ => paramTurn_stays hgrouped) fun _ _ =>
      .bind (.expectOrReport rfl) fun _ _ => .idle

/-! ## Functions -/

omit [place.Encloses E] in
theorem predicateSubject_stays : predicateSubject.Stays home place source := by
  refine .observe .peekKind ?_
  split
  next h => exact .common_bind (h ▸ rfl) .idle
  next => exact .bind ident_stays fun _ _ => .idle

theorem predicateRest_stays (asserts : Bool) :
    (predicateRest asserts).Stays home place source := by
  refine .bind predicateSubject_stays fun _ _ => .observe .peek ?_
  split
  next h =>
    simp only [Bool.and_eq_true, decide_eq_true_eq] at h
    exact .common_bind (h.1 ▸ rfl) <| .bind type_stays fun _ _ => .idle
  next =>
    split
    · exact .idle
    · exact .fail id

theorem predicate_stays : predicate.Stays home place source := by
  refine .spanned <| .observe .peekKind <| .observe (.kindAhead 1) ?_
  split
  next h =>
    simp only [Bool.and_eq_true, decide_eq_true_eq] at h
    refine .common_bind (h.1.1 ▸ rfl) <| .observe .atLineStart ?_
    split
    · exact .fail id
    · exact predicateRest_stays true
  next => exact predicateRest_stays false

theorem resultType_stays : resultType.Stays home place source := by
  refine .observe .peekKind <| .observe (.kindAhead 1) ?_
  dsimp only
  split
  · exact .attempt_bind predicate_stays (fun _ _ => .idle) type_stays
  · exact type_stays

theorem functionTail_stays (typeParams : List TypeParam) :
    (functionTail typeParams).Stays home place source :=
  .bind params_stays fun _ _ => .bind (.expect rfl) fun _ _ =>
    .bind resultType_stays fun _ _ => .idle

theorem constructorType_stays (isAbstract : Bool) :
    (constructorType isAbstract).Stays home place source :=
  .bind (.expect rfl) fun _ _ => .bind typeParams_stays fun _ _ =>
    .bind (functionTail_stays _) fun _ _ => .idle

theorem abstractConstructorType_stays (h : source.peek.kind.isCommon = true) :
    abstractConstructorType.Stays home place source :=
  .attempt_bind (.common_bind h (constructorType_stays true))
    (fun _ _ => .idle) (.refuse fun _ => id)

theorem parenType_stays (h : source.peek.kind = .mark .openParen) :
    parenType.Stays home place source :=
  .attempt_bind (functionTail_stays []) (fun _ _ => .idle) <|
    .common_bind (h ▸ rfl) <| .bind type_stays fun _ _ =>
      .bind (.expectOrReport rfl) fun _ _ => .idle

theorem genericFunctionType_stays : genericFunctionType.Stays home place source :=
  .attempt_bind (.bind typeParams_stays fun _ _ => functionTail_stays _)
    (fun _ _ => .idle) (.refuse fun _ => id)

theorem signature_stays : signature.Stays home place source := by
  refine .bind typeParams_stays fun _ _ => .bind params_stays fun _ _ =>
    .bind (.skipIf rfl) fun found _ => ?_
  split
  · exact .bind (.optional resultType_stays) fun _ _ => .idle
  · exact .bind .idle fun _ _ => .idle

/-! ## Tuples, object types and template literals -/

theorem plainElement_stays : plainElement.Stays home place source := by
  refine .bind (Q := fun _ => E.Holds home) (.withSpan <| .bind type_stays fun _ _ =>
    .bind (.skipIf rfl) fun _ _ => .idle) fun found _ => ?_
  obtain ⟨⟨type, isOptional⟩, span⟩ := found
  cases isOptional <;> exact .idle

theorem labelledElement_stays (hgrouped : E.Grouped) :
    labelledElement.Stays home place source := by
  refine .spanned <| .bind (.skipIf rfl) fun _ _ => .bind (anyIdent_stays hgrouped) fun _ _ =>
    .bind (.skipIf rfl) fun _ _ => .bind (.expect rfl) fun _ _ =>
      .bind type_stays fun _ _ => .observe .peekKind ?_
  split
  next h =>
    exact .bind (.withSpan (Q := fun _ => E.Holds home) <|
      .advance fun hholds => Enclosure.holds_advance hholds (h ▸ rfl)) fun _ _ =>
        .report_bind fun _ => .idle
  next => exact .idle

theorem tupleElement_stays (hgrouped : E.Grouped) : tupleElement.Stays home place source := by
  obtain ⟨found, hfound⟩ := labelFollows_observes source
    (source.peek.kind == .mark .ellipsis).toNat
  refine .observe (.nextIs _) <| .observe hfound ?_
  split
  · exact labelledElement_stays hgrouped
  · exact plainElement_stays

theorem tupleType_stays (h : source.peek.kind = .mark .openBracket) :
    tupleType.Stays home place source :=
  .opening_bind h (.inl rfl) rfl fun hgrouped =>
    .bind (commaSeparated_stays fun _ => elementOrStop_stays (tupleElement_stays hgrouped))
      fun _ _ => .bind (.expectOrReport rfl) fun _ _ => .idle

omit [place.Encloses E] in
theorem mappedModifier_stays {kind : Kind} (h : kind.isCommon = true) :
    (mappedModifier kind).Stays home place source := by
  refine .observe .peekKind ?_
  split
  next hsign =>
    refine .common_bind ?_ <| .bind (.expect h) fun _ _ => .idle
    obtain hplus | hminus := by simpa using hsign
    · exact hplus ▸ rfl
    · exact hminus ▸ rfl
  next =>
    refine .bind (.skipIf h) fun found _ => ?_
    cases found <;> exact .idle

/-- A mapped type is read in the stretch that its brace opens. -/
theorem mappedType_leads :
    mappedType.Leads E.Permits place source (E.Holds home) (fun _ => True)
      fun _ => E.Holds home := by
  refine .expect_brace_bind (fun _ _ => trivial) fun inner hresumes _ _ => ?_
  refine .bind (mappedModifier_stays rfl).tried fun _ _ => .bind (Leads.expect rfl).tried fun _ _ =>
    .bind ident_stays.tried fun _ _ => .bind (Leads.expect rfl).tried fun _ _ =>
    .bind type_stays.tried fun _ _ => .bind (requiredTypeAfter_stays rfl).tried fun _ _ =>
    .bind (Leads.expect rfl).tried fun _ _ => .bind (mappedModifier_stays rfl).tried fun _ _ =>
    .bind (requiredTypeAfter_stays rfl).tried fun _ _ =>
    .bind (Leads.skipIf rfl).tried fun ended _ => ?_
  dsimp only
  cases ended
  · exact .bind (Leads.skipIf rfl).tried fun _ _ => .bind (.expect_closing hresumes)
      fun _ _ => .idle
  · exact .bind (.expect_closing hresumes) fun _ _ => .idle

/-- Behind the members of an object type there is its closing brace. -/
theorem braceType_stays (h : source.peek.kind = .mark .openBrace) :
    braceType.Stays home place source := by
  refine .attempt_bind mappedType_leads (fun _ _ => .idle) ?_
  refine .brace_bind h fun hgrouped inner hresumes => ?_
  refine .bind (Q := fun _ => E.Closes inner) ?_ fun _ _ =>
    .bind (.expectOrReport_closing hresumes) fun _ _ => .idle
  exact (Place.Encloses.members hgrouped).mono id (fun _ => False.elim) fun _ _ => id

theorem templateRest_stays : templateRest.Stays home place source := by
  refine .map <| .collect_evenly fun source => .bind type_stays fun _ _ => .observe .peek ?_
  split
  next h => exact .common_bind (h ▸ rfl) .idle
  next h => exact .common_bind (h ▸ rfl) .idle
  next => exact .reportHere_bind fun _ => .idle

theorem templateType_stays (h : source.peek.kind.isCommon = true) :
    templateType.Stays home place source := by
  refine .common_bind h ?_
  split
  · exact .bind templateRest_stays fun _ _ => .idle
  · exact .bind .idle fun _ _ => .idle

/-! ## Names and other primary types -/

theorem importType_stays : importType.Stays home place source := by
  refine .bind (.expect rfl) fun _ _ => .expect_opening_bind (.inl rfl) rfl (fun _ => id)
    fun hgrouped _ _ => .bind stringLit_stays fun _ _ => .bind (.expect rfl) fun _ _ =>
    .bind (.skipIf rfl) fun found _ => ?_
  cases found
  · exact .bind .idle fun _ _ => .bind typeArgs_stays fun _ _ => .idle
  · exact .bind (.map (qualifier_stays hgrouped)) fun _ _ =>
      .bind typeArgs_stays fun _ _ => .idle

theorem queryType_stays (h : source.peek.kind.isCommon = true) :
    queryType.Stays home place source := by
  refine .common_bind h <| .observe .peekKind ?_
  split
  · exact .bind (.map importType_stays) fun _ _ => .bind typeArgs_stays fun _ _ => .idle
  · exact .bind (.map entityName_stays) fun _ _ => .bind typeArgs_stays fun _ _ => .idle

theorem namedType_stays : namedType.Stays home place source := by
  refine .observe .peek <| .observe (.kindAhead 1) ?_
  split
  next h =>
    simp only [Bool.and_eq_true, decide_eq_true_eq] at h
    exact .common_bind (h.1.1.1 ▸ rfl) .idle
  next =>
    split
    · exact .map typeRef_stays
    · exact .refuse fun _ => id

omit [place.Encloses E] in
theorem negativeType_stays (h : source.peek.kind.isCommon = true) :
    negativeType.Stays home place source := by
  refine .observe (.kindAhead 1) ?_
  split
  next hafter =>
    rw [source.ahead_one] at hafter
    refine .common_bind h <| .common_bind ?_ .idle
    obtain hnumber | hbigint := by simpa using hafter
    · exact hnumber ▸ rfl
    · exact hbigint ▸ rfl
  next => exact .refuse fun _ => id

omit [place.Encloses E] in
theorem isCommon_of_primitive {kind : Kind} {primitive : Primitive}
    (h : primitive? kind = some primitive) : kind.isCommon = true := by
  unfold primitive? at h
  split at h
  all_goals first | rfl | cases h

theorem primaryKind_stays : primaryKind.Stays home place source := by
  refine .observe .peek ?_
  split
  next h => exact .common_bind (isCommon_of_primitive h) .idle
  next =>
    split
    next h => exact .common_bind (h ▸ rfl) .idle
    next h => exact .common_bind (h ▸ rfl) .idle
    next h => exact .common_bind (h ▸ rfl) .idle
    next h => exact .common_bind (h ▸ rfl) .idle
    next h => exact .common_bind (h ▸ rfl) .idle
    next h => exact negativeType_stays (h ▸ rfl)
    next h => exact templateType_stays (h ▸ rfl)
    next h => exact templateType_stays (h ▸ rfl)
    next h => exact .common_bind (h ▸ rfl) .idle
    next h => exact parenType_stays h
    next => exact genericFunctionType_stays
    next => exact constructorType_stays false
    next h => exact abstractConstructorType_stays (h ▸ rfl)
    next h => exact tupleType_stays h
    next h => exact braceType_stays h
    next h => exact queryType_stays (h ▸ rfl)
    next => exact .map importType_stays
    next h => exact .common_bind (h ▸ rfl) <| .bind type_stays fun _ _ => .idle
    next => exact namedType_stays

/-! ## Suffixes and operators -/

theorem suffix_stays (h : source.peek.kind = .mark .openBracket) :
    suffix.Stays home place source := by
  refine .common_bind (h ▸ rfl) <| .bind (.skipIf rfl) fun found _ => ?_
  split
  · exact .idle
  · exact .optional_bind type_stays
      (fun _ _ => .bind (.expectOrReport rfl) fun _ _ => .idle) fun _ => .idle

theorem suffixTurn_stays (type : Ty) : (suffixTurn type).Stays home place source := by
  refine .observe .peek ?_
  split
  next h =>
    simp only [Bool.and_eq_true, decide_eq_true_eq] at h
    refine .bind (Q := fun _ => E.Holds home) (.withSpan (suffix_stays h.1)) fun found _ => ?_
    obtain ⟨suffix, span⟩ := found
    cases suffix <;> exact .idle
  next => exact .idle

theorem suffixedType_stays : suffixedType.Stays home place source :=
  .bind (.spanned primaryKind_stays) fun first _ =>
    .loop_evenly (fun type _ => suffixTurn_stays type) first

theorem inferredType_stays (inBound : Bool) (h : source.peek.kind.isCommon = true) :
    (inferredType inBound).Stays home place source := by
  refine .common_bind h <| .bind ident_stays fun _ _ => .observe .peekKind ?_
  split
  next hextends =>
    exact .bind (Q := fun _ => E.Holds home)
      (Place.Encloses.constraint inBound hextends) fun _ _ => .idle
  next => exact .idle

theorem operatorType_stays (inBound : Bool) :
    (operatorType inBound).Stays home place source := by
  have operand_stays : ∀ {source}, (Parser.nested (.operand inBound)).Stays home place source :=
    Place.Encloses.operand inBound
  refine .observe .peekKind <| .observe (.kindAhead 1) ?_
  split
  next h =>
    exact .spanned <| .common_bind (h ▸ rfl) <| .bind operand_stays fun _ _ => .idle
  next =>
    split
    next h =>
      simp only [Bool.and_eq_true, decide_eq_true_eq, source.ahead_one] at h
      exact .spanned <| .common_bind (h.1 ▸ rfl) <| .common_bind (h.2 ▸ rfl) .idle
    next =>
      split
      next h =>
        simp only [Bool.and_eq_true, decide_eq_true_eq] at h
        exact .spanned <| .common_bind (h.1 ▸ rfl) <| .bind operand_stays fun _ _ => .idle
      next =>
        split
        next h => exact .spanned (inferredType_stays inBound (h ▸ rfl))
        next => exact suffixedType_stays

omit [place.Encloses E] in
theorem operands_stays {mark : Mark} {wrap : List Ty → TyKind} {operand : Parser Ty}
    (hmark : (Kind.mark mark).isCommon = true)
    (h : ∀ source, operand.Stays home place source) :
    (operands mark wrap operand).Stays home place source := by
  unfold operands
  refine .spanned <| .bind (.skipIf hmark) fun _ _ => .bind (h _) fun _ _ =>
    .observe (.nextIs _) ?_
  split
  · exact .bind (afterEach_stays hmark h) fun _ _ => .idle
  · exact .idle

theorem unionType_stays (inBound : Bool) : (unionType inBound).Stays home place source :=
  operands_stays rfl fun _ => operands_stays rfl fun _ => operatorType_stays inBound

theorem conditionalType_stays : conditionalType.Stays home place source := by
  unfold conditionalType
  refine .spanned <| .bind (unionType_stays false) fun _ _ => .observe .peek ?_
  split
  next h =>
    simp only [Bool.and_eq_true, decide_eq_true_eq] at h
    refine .optional_bind ?_ (fun _ _ => .idle) fun _ => .idle
    exact .common_bind (h.1 ▸ rfl) <| .bind (unionType_stays true) fun _ _ =>
      .bind (.expect rfl) fun _ _ => .bind type_stays fun _ _ =>
      .bind (.expect rfl) fun _ _ => .bind type_stays fun _ _ => .idle
  next => exact .idle

theorem inferConstraint_stays (inBound : Bool) (h : source.peek.kind.isCommon = true) :
    (inferConstraint inBound).Stays home place source := by
  -- Without a constraint nothing was read, not even the keyword.
  refine .attempt (.common_bind h <| .bind (unionType_stays true) fun _ _ =>
    .observe .peekKind ?_) id
  split
  · exact .fail id
  · exact .idle

end

end DeclFile.Parser
