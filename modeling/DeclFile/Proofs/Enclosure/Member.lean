import DeclFile.Proofs.Enclosure.Type
import DeclFile.Proofs.Reading.Member

/-! # Members in a stretch

The members between braces end at the closing brace of the stretch, whatever is wrong with them.
What is broken is skipped group by group. Only where a member is given up right at an opening
brace, that brace is skipped by itself, and with it the stretch is lost. Whoever does so has
reported it, as a missing name or a missing end.
-/

namespace DeclFile

namespace Enclosure

variable {E : Enclosure} {home : E.Home} {source : TokenStream}

/-- No member is given up right at an opening brace. -/
structure KeepsMembers (E : Enclosure) : Prop where
  grouped : E.Grouped
  name (span : Span) : ¬E.Permits ((Cause.missingPropertyName (.mark .openBrace)).at span)
  ending (span : Span) : ¬E.Permits ((Cause.missingMemberEnd (.mark .openBrace)).at span)

/-- The next token may be read by itself, since it is no brace. -/
def Unbraced (E : Enclosure) (home : E.Home) (tokens : List Token) : Prop :=
  E.Holds home tokens ∧ ∀ token ∈ tokens.head?,
    token.kind ≠ .mark .openBrace ∧ token.kind ≠ .mark .closeBrace

theorem unbraced_of (hopen : source.peek.kind ≠ .mark .openBrace)
    (hclose : source.peek.kind ≠ .mark .closeBrace) (h : E.Holds home source.pending) :
    E.Unbraced home source.pending := by
  refine ⟨h, fun token htoken => ?_⟩
  rw [(pending_eq h).1] at htoken
  cases htoken
  exact ⟨hopen, hclose⟩

theorem Unbraced.advance (hgrouped : E.Grouped) (h : E.Unbraced home source.pending) :
    E.Holds home source.advance.pending := by
  obtain ⟨hholds, hhead⟩ := h
  rw [(pending_eq hholds).1] at hhead
  obtain ⟨hopen, hclose⟩ := hhead _ rfl
  by_cases hexport : source.peek.kind = .word .export
  · exact holds_advance_word hgrouped hholds (hexport ▸ rfl)
  · exact holds_advance hholds (Kind.isCommon_of hopen hclose hexport)

theorem closes_of (hholds : E.Holds home source.pending)
    (h : source.peek.kind = .mark .closeBrace) : E.Closes home source.pending :=
  ⟨hholds, _, _, (pending_eq hholds).1, h⟩

end Enclosure

namespace Parser

open Enclosure

variable {α : Type} {E : Enclosure} {home : E.Home} {place : Place} {source : TokenStream}
  {F : List Token → Prop}

section

variable [place.Encloses E]

theorem indexHead_stays : indexHead.Stays home place source :=
  .bind (.expect rfl) fun _ _ => .bind ident_stays fun _ _ => .bind (.expect rfl) fun _ _ =>
    .bind type_stays fun _ _ => .bind (.expect rfl) fun _ _ => .idle

theorem indexSignature?_stays (readonly : Bool) :
    (indexSignature? readonly).Stays home place source := by
  refine .observe .peekKind ?_
  split
  · refine .attempt_bind indexHead_stays (fun found _ => ?_) .idle
    exact .bind (.expect rfl) fun _ _ => .bind type_stays fun _ _ => .idle
  · exact .idle

omit [place.Encloses E] in
theorem accessorHead_stays (hgrouped : E.Grouped) (h : source.peek.kind.isCommon = true) :
    accessorHead.Stays home place source := by
  refine .common_bind h <| .observe .atLineStart ?_
  split
  · exact .fail_bind id
  · refine .bind (propertyName_stays hgrouped) fun _ _ => .observe .peekKind ?_
    split
    · exact .idle
    · exact .fail id

theorem getterRest_stays (key : PropertyName) : (getterRest key).Stays home place source := by
  refine .bind (Q := fun _ => E.Holds home) (.withSpan params_stays) fun found _ => ?_
  obtain ⟨params, span⟩ := found
  dsimp only
  split
  · exact .report_bind fun _ => .bind (typeAfter_stays rfl) fun _ _ => .idle
  · exact .bind (typeAfter_stays rfl) fun _ _ => .idle

theorem setterResult_stays {accessor : Accessor} :
    (do
      if (← peekKind) = .mark .colon then
        reportHere .setterResult
        let _ ← advance
        let _ ← optional type
      return accessor : Parser Accessor).Stays home place source := by
  refine .observe .peekKind ?_
  split
  next h =>
    exact .reportHere_bind fun _ => .common_bind (h ▸ rfl) <| .bind (.optional type_stays)
      fun _ _ => .idle
  next => exact .idle

theorem setterRest_stays (key : PropertyName) : (setterRest key).Stays home place source := by
  refine .bind (Q := fun _ => E.Holds home) (.withSpan params_stays) fun found _ => ?_
  obtain ⟨params, span⟩ := found
  dsimp only
  split
  · exact .report_bind fun _ => .fail id
  · split
    · exact .report_bind fun _ => setterResult_stays
    · exact setterResult_stays

theorem accessor?_stays (hgrouped : E.Grouped) : accessor?.Stays home place source := by
  refine .observe .peekKind ?_
  split
  next h =>
    refine .attempt_bind (accessorHead_stays hgrouped ?_) (fun found _ => ?_) .idle
    · obtain hget | hset := by simpa using h
      · exact hget ▸ rfl
      · exact hset ▸ rfl
    · obtain ⟨isGetter, key⟩ := found
      refine .map ?_
      split
      · exact getterRest_stays key
      · exact setterRest_stays key
  next => exact .idle

/-! ## Interfaces and object types -/

theorem namedMember_stays (hgrouped : E.Grouped) (readonly : Bool) :
    (namedMember readonly).Stays home place source := by
  refine .bind (propertyName_stays hgrouped) fun _ _ => .bind (.skipIf rfl) fun _ _ =>
    .observe .peekKind ?_
  split
  · exact .bind signature_stays fun _ _ => .idle
  · exact .bind (typeAfter_stays rfl) fun _ _ => .idle

theorem keyedMember_stays (hgrouped : E.Grouped) : keyedMember.Stays home place source := by
  obtain ⟨followed, hfollowed⟩ := modifierFollowed_observes source
  refine .observe .peekKind <| .observe hfollowed ?_
  refine .when (M := E.Holds home) (fun h => ?_) (fun _ => id) fun _ => ?_
  · simp only [Bool.and_eq_true, decide_eq_true_eq] at h
    exact .advance fun hholds => holds_advance hholds (h.1 ▸ rfl)
  refine .bind (indexSignature?_stays _) fun index? _ => ?_
  cases index? with
  | some => exact .idle
  | none =>
      refine .bind (accessor?_stays hgrouped) fun accessor? _ => ?_
      cases accessor? with
      | some accessor => cases accessor <;> exact .idle
      | none => exact namedMember_stays hgrouped _

theorem member_stays (hgrouped : E.Grouped) : member.Stays home place source := by
  refine .spanned <| .observe .peekKind <| .observe (.kindAhead 1) ?_
  split
  · exact .bind signature_stays fun _ _ => .idle
  · split
    next h =>
      simp only [Bool.and_eq_true, decide_eq_true_eq] at h
      exact .common_bind (h.1 ▸ rfl) <| .bind signature_stays fun _ _ => .idle
    next => exact keyedMember_stays hgrouped

/-! ## Lists of members -/

omit [place.Encloses E] in
/-- If a member does not end, no brace is next. -/
theorem endMember_leads (hkeeps : E.KeepsMembers) :
    endMember.Leads E.Permits place source (E.Holds home) F fun ended =>
      if ended then E.Holds home else E.Unbraced home := by
  refine .observe .peek ?_
  split
  next h =>
    refine .common_bind ?_ (.pure id)
    obtain hsemicolon | hcomma := by simpa using h
    · exact hsemicolon ▸ rfl
    · exact hcomma ▸ rfl
  next =>
    split
    next => exact .pure id
    next h =>
      simp only [Bool.or_eq_true, decide_eq_true_eq, not_or] at h
      refine .report_bind fun hpermits => .pure fun hholds => ?_
      refine unbraced_of ?_ h.1.1 hholds
      intro hopen
      exact hkeeps.ending _ (hopen ▸ hpermits)

omit [place.Encloses E] in
theorem skipToMember_stays (hgrouped : E.Grouped) :
    skipToMember.Leads E.Permits place source (E.Holds home) F fun _ => E.Holds home := by
  refine .loop_evenly (fun _ source => .observe .peek ?_) ()
  split
  next => exact .idle
  next => exact .idle
  next h => exact .common_bind (h ▸ rfl) .idle
  next h => exact .common_bind (h ▸ rfl) .idle
  next hclose _ _ =>
    split
    next => exact .idle
    next =>
      split
      next hopens => exact .bind (skipGroup_stays (.inl hopens)) fun _ _ => .idle
      next hopens =>
        refine .advance_bind (fun hholds => ?_) .idle
        refine Unbraced.advance hgrouped (unbraced_of ?_ hclose hholds)
        intro heq
        exact hopens (heq ▸ rfl)

omit [place.Encloses E] in
/-- Where nothing was read of a broken member, the next token is skipped by itself. -/
theorem recoverMember_leads (hgrouped : E.Grouped) (progress : Bool) :
    (recoverMember progress).Leads E.Permits place source
      (if progress then E.Holds home else E.Unbraced home) F fun _ => E.Holds home := by
  refine .observe .peekKind ?_
  cases progress with
  | true => exact skipToMember_stays hgrouped
  | false =>
      refine .of_before fun _ hunbraced => ?_
      rw [if_neg (by simp [(pending_eq hunbraced.1).2])]
      refine .advance_bind (M := E.Holds home) (Unbraced.advance hgrouped) ?_
      split
      · exact .idle
      · exact .idle
      · exact skipToMember_stays hgrouped

omit [place.Encloses E] in
/-- Members that stay inside, and are not given up at an opening brace, end at the closing one. -/
theorem memberList_leads (hkeeps : E.KeepsMembers) {skips : Kind → Bool} {element : Parser α}
    (hskips : ∀ kind, skips kind = true → kind.isCommon = true)
    (helement : ∀ source, element.Stays home place source)
    (hopening : ∀ source : TokenStream, source.peek.kind = .mark .openBrace →
      element.Leads E.Permits place source (E.Holds home) (fun _ => False) fun _ _ => False) :
    (memberList skips element).Leads E.Permits place source (E.Holds home) (fun _ => False)
      fun _ => E.Closes home := by
  refine .collect (I := E.Holds home) fun source => .observe .peekKind ?_
  split
  next h =>
    refine .pure fun hholds => closes_of hholds ?_
    simpa [(pending_eq hholds).2] using h
  next h =>
    simp only [Bool.or_eq_true, decide_eq_true_eq, not_or] at h
    split
    next hskip => exact .common_bind (hskips _ hskip) (.pure id)
    next =>
      have hrecover (progress : Bool) (rest : TokenStream) :
          (recoverMember progress >>= fun _ => (pure ⟨none, true⟩ : Parser (Turn α))).Leads
            E.Permits place rest (if progress then E.Holds home else E.Unbraced home)
            (fun _ => False) fun taken => if taken.again then E.Holds home else E.Closes home :=
        .bind (recoverMember_leads hkeeps.grouped progress) fun _ _ => .pure id
      by_cases hopen : source.peek.kind = .mark .openBrace
      · exact .settle_bind (hopening source hopen) (fun _ _ => .never id)
          fun _ _ => .never And.left
      · refine .settle_bind (helement source) (fun found rest => ?_) fun progress rest => ?_
        · refine .bind (endMember_leads hkeeps) fun ended rest => ?_
          cases ended with
          | true => exact .pure id
          | false =>
              exact .bind (recoverMember_leads hkeeps.grouped false) fun _ _ => .pure id
        · refine .of_before fun _ ⟨hholds, hsame⟩ => ?_
          refine (hrecover progress rest).pre fun _ => ?_
          cases progress with
          | true => exact hholds
          | false =>
              have heq := hsame rfl
              rw [heq] at hholds ⊢
              exact unbraced_of hopen h.1 hholds

omit [place.Encloses E] in
theorem indexSignature?_observes (readonly : Bool) (h : source.peek.kind ≠ .mark .openBracket) :
    Observes (indexSignature? readonly) source none := by
  refine .bind .peekKind ?_
  rw [if_neg h]
  exact .pure none

omit [place.Encloses E] in
theorem accessor?_observes (hget : source.peek.kind ≠ .word .get)
    (hset : source.peek.kind ≠ .word .set) : Observes accessor? source none := by
  refine .bind .peekKind ?_
  rw [if_neg (by simp [hget, hset])]
  exact .pure none

omit [place.Encloses E] in
theorem propertyName_opening {β : Type} {next : PropertyName → Parser β}
    (hkeeps : E.KeepsMembers) (h : source.peek.kind = .mark .openBrace) :
    (propertyName >>= next).Leads E.Permits place source (E.Holds home) (fun _ => False)
      fun _ _ => False := by
  refine .bind (Q := fun _ _ => False) (.observe .peek ?_) fun _ _ => .never id
  rw [h]
  refine .refuse fun hpermits => ?_
  exact absurd (h ▸ hpermits) (hkeeps.name _)

omit [place.Encloses E] in
theorem member_opening (hkeeps : E.KeepsMembers) (h : source.peek.kind = .mark .openBrace) :
    member.Leads E.Permits place source (E.Holds home) (fun _ => False) fun _ _ => False := by
  obtain ⟨followed, hfollowed⟩ := modifierFollowed_observes source
  refine .spanned <| .observe .peekKind <| .observe (.kindAhead 1) ?_
  rw [h]
  refine .observe .peekKind <| .observe hfollowed ?_
  rw [h]
  refine .observe (indexSignature?_observes _ (by simp [h])) ?_
  refine .observe (accessor?_observes (by simp [h]) (by simp [h])) ?_
  exact propertyName_opening hkeeps h

theorem members_leads (hkeeps : E.KeepsMembers) :
    members.Leads E.Permits place source (E.Holds home) (fun _ => False)
      fun _ => E.Closes home := by
  refine memberList_leads hkeeps (fun kind hkind => ?_) (fun _ => member_stays hkeeps.grouped)
    fun _ => member_opening hkeeps
  obtain rfl | rfl := by simpa using hkind
  · rfl
  · rfl

/-! ## Classes -/

omit [place.Encloses E] in
theorem isCommon_of_classModifier {kind : Kind} {modifier : Modifier}
    (h : classModifier? kind = some modifier) : kind.isCommon = true := by
  unfold classModifier? at h
  split at h
  all_goals first | rfl | cases h

omit [place.Encloses E] in
theorem classModifiers_stays : classModifiers.Stays home place source := by
  refine .loop_evenly (fun modifiers source => .observe .peekKind ?_) _
  split
  next h =>
    obtain ⟨followed, hfollowed⟩ := modifierFollowed_observes source
    refine .observe hfollowed ?_
    split
    · split
      · exact .reportHere_bind fun _ => .common_bind (isCommon_of_classModifier h) .idle
      · exact .common_bind (isCommon_of_classModifier h) .idle
    · exact .idle
  next => exact .idle

theorem namedClassMember_stays (hgrouped : E.Grouped) :
    namedClassMember.Stays home place source := by
  refine .bind (propertyName_stays hgrouped) fun _ _ => .bind (.skipIf rfl) fun isOptional _ => ?_
  refine .when (M := E.Holds home) (fun _ => .skipIf rfl) (fun _ => id) fun _ => ?_
  refine .observe .peekKind ?_
  split
  · exact .bind signature_stays fun _ _ => .bind skipBody_stays fun _ _ => .idle
  · exact .bind (typeAfter_stays rfl) fun _ _ =>
      .bind (skipUnsupportedInitializer_stays hgrouped _) fun _ _ => .idle

theorem classMemberKind_stays (hgrouped : E.Grouped) (modifiers : Modifiers) :
    (classMemberKind modifiers).Stays home place source := by
  refine .observe .peekKind ?_
  split
  next h =>
    simp only [Bool.and_eq_true, decide_eq_true_eq] at h
    exact .reportHere_bind fun _ => .bind (skipGroup_stays (.inl (h.1 ▸ rfl)))
      fun _ _ => .fail id
  next =>
    refine .observe (.bind .peek (.bind (.kindAhead 1) (.pure _))) ?_
    split
    next h =>
      simp only [Bool.and_eq_true, Bool.or_eq_true, decide_eq_true_eq] at h
      refine .common_bind ?_ <| .bind signature_stays fun _ _ =>
        .bind skipBody_stays fun _ _ => .idle
      obtain hname | hstring := h.1.1
      · exact hname ▸ rfl
      · exact hstring ▸ rfl
    next =>
      refine .bind (indexSignature?_stays _) fun index? _ => ?_
      cases index? with
      | some => exact .idle
      | none =>
          refine .bind (accessor?_stays hgrouped) fun accessor? _ => ?_
          cases accessor? with
          | some accessor => cases accessor <;> exact .bind skipBody_stays fun _ _ => .idle
          | none => exact namedClassMember_stays hgrouped

theorem classMember_stays (hgrouped : E.Grouped) : classMember.Stays home place source :=
  .spanned <| .bind classModifiers_stays fun _ _ =>
    .bind (classMemberKind_stays hgrouped _) fun _ _ => .idle

omit [place.Encloses E] in
theorem classModifiers_observes (h : classModifier? source.peek.kind = none) :
    Observes classModifiers source .empty := by
  refine .loop (.bind .peekKind ?_)
  rw [h]
  exact .pure _

omit [place.Encloses E] in
theorem classMember_opening (hkeeps : E.KeepsMembers)
    (h : source.peek.kind = .mark .openBrace) :
    classMember.Leads E.Permits place source (E.Holds home) (fun _ => False)
      fun _ _ => False := by
  refine .spanned <| .observe (classModifiers_observes (h ▸ rfl)) ?_
  refine .bind (Q := fun _ _ => False) (.observe .peekKind ?_) fun _ _ => .never id
  rw [h]
  refine .observe (.bind .peek (.bind (.kindAhead 1) (.pure _))) ?_
  rw [if_neg (by simp [h])]
  refine .observe (indexSignature?_observes _ (by simp [h])) ?_
  refine .observe (accessor?_observes (by simp [h]) (by simp [h])) ?_
  exact propertyName_opening hkeeps h

theorem classMembers_leads (hkeeps : E.KeepsMembers) :
    classMembers.Leads E.Permits place source (E.Holds home) (fun _ => False)
      fun _ => E.Closes home := by
  refine memberList_leads hkeeps (fun kind hkind => ?_)
    (fun _ => classMember_stays hkeeps.grouped) fun _ => classMember_opening hkeeps
  obtain rfl := beq_iff_eq.mp hkind
  rfl

end

/-! ## All goals -/

/-- A type that is too deep is not read. -/
theorem tooDeep_stays {limit : Nat} :
    (refusal.tooDeep limit : Parser α).Stays home place source :=
  .refuse fun _ => id

/-- Where nesting is too deep, the members are skipped up to the closing brace. -/
theorem refusedMembers_leads {limit : Nat} (hgrouped : E.Grouped) :
    (refusal.skipBody limit : Parser (List α)).Leads E.Permits place source (E.Holds home)
      (fun _ => False) fun _ => E.Closes home := by
  refine .reportHere_bind fun _ => .bind (skipGroupsUntil_leads hgrouped fun token h => ?_)
    fun _ _ => .pure fun ⟨hholds, token, rest, heq, hstop⟩ => ?_
  · exact beq_iff_eq.mpr h
  · exact ⟨hholds, token, rest, heq, beq_iff_eq.mp hstop⟩

end Parser

/-- All goals of the grammar stay inside, by induction on the levels that are left. -/
theorem Place.encloses {limit : Nat} {E : Enclosure} (hkeeps : E.Grouped → E.KeepsMembers)
    (place : Place) (hgrammar : place.grammar = DeclFile.grammar limit) : place.Encloses E := by
  induction hlevels : place.limit - place.depth using Nat.strong_induction_on
    generalizing place with
  | _ levels ih =>
      have hgoal {goal : Goal} {source : TokenStream} {home : E.Home} {F : List Token → Prop}
          {Q : goal.Result → List Token → Prop}
          (hrule : ∀ (place : Place) [place.Encloses E],
            (Parser.rule goal).Leads E.Permits place source (E.Holds home) F Q)
          (hrefusal : ∀ place : Place,
            (Parser.refusal limit goal).Leads E.Permits place source (E.Holds home) F Q) :
          (Parser.nested goal).Leads E.Permits place source (E.Holds home) F Q := by
        refine .nested (fun hdepth => ?_) ?_ <;> rw [hgrammar]
        · have hdeeper : place.limit - (place.depth + 1) < levels := by omega
          have : (place.inside source.pending.length).Encloses E := ih _ hdeeper _ hgrammar rfl
          exact hrule _
        · exact hrefusal _
      constructor
      case type =>
        exact hgoal (fun _ _ => Parser.conditionalType_stays) fun _ => Parser.tooDeep_stays
      case operand =>
        intro inBound home source
        exact hgoal (fun _ _ => Parser.operatorType_stays inBound) fun _ => Parser.tooDeep_stays
      case constraint =>
        intro inBound home source hextends
        exact hgoal (fun _ _ => Parser.inferConstraint_stays inBound (hextends ▸ rfl))
          fun _ => Parser.tooDeep_stays
      case members =>
        intro hgrouped home source
        exact hgoal (fun _ _ => Parser.members_leads (hkeeps hgrouped))
          fun _ => Parser.refusedMembers_leads hgrouped
      case classMembers =>
        intro hgrouped home source
        exact hgoal (fun _ _ => Parser.classMembers_leads (hkeeps hgrouped))
          fun _ => Parser.refusedMembers_leads hgrouped

end DeclFile
