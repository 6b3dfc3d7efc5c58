import DeclFile.Proofs.Brackets.Type
import DeclFile.Proofs.Reading.Member

/-! # Brackets in members

A broken member was reported, so what is skipped to get past it is of no concern, and neither
are bodies and initializers, which are reported before they are skipped.
-/

namespace DeclFile.Parser

variable {α : Type} {place : Place} {silent : Prop} {source : TokenStream} {awaited : List Mark}

theorem skipBody_brackets : skipBody.Brackets place silent source awaited awaited := by
  refine .observe .peekKind ?_
  split
  · exact .reportHere_bind
  · exact .idle

section

variable [place.Bracketed]

theorem indexHead_brackets : indexHead.Brackets place silent source awaited awaited :=
  .bind (.expect_opening rfl) fun _ _ => .bind ident_brackets fun _ _ =>
    .bind (.expect rfl) fun _ _ => .bind type_brackets fun _ _ =>
    .bind .expect_closing fun _ _ => .idle

theorem indexSignature?_brackets (readonly : Bool) :
    (indexSignature? readonly).Brackets place silent source awaited awaited := by
  refine .observe .peekKind ?_
  split
  · refine .attempt_bind indexHead_brackets (fun found _ => ?_) .idle
    exact .bind (.expect rfl) fun _ _ => .bind type_brackets fun _ _ => .idle
  · exact .idle

omit [place.Bracketed] in
/-- What is no accessor fails in silence. -/
theorem accessorHead_brackets (h : isBracket source.peek.kind = false) :
    accessorHead.Brackets place True source awaited awaited := by
  refine .plain_bind h <| .observe .atLineStart ?_
  split
  · exact .fail_bind trivial
  · refine .bind propertyName_brackets fun _ _ => .observe .peekKind ?_
    split
    · exact .idle
    · exact .fail trivial

theorem getterRest_brackets (key : PropertyName) :
    (getterRest key).Brackets place silent source awaited awaited := by
  refine .bind (.withSpan (Q := fun _ => Nests false awaited) params_brackets) fun found _ => ?_
  obtain ⟨params, span⟩ := found
  dsimp only
  split
  · exact .report_bind
  · exact .bind (typeAfter_brackets rfl) fun _ _ => .idle

theorem setterRest_brackets (key : PropertyName) :
    (setterRest key).Brackets place silent source awaited awaited := by
  refine .bind (.withSpan (Q := fun _ => Nests false awaited) params_brackets) fun found _ => ?_
  obtain ⟨params, span⟩ := found
  dsimp only
  split
  · exact .report_bind
  · split
    · exact .report_bind
    · refine .observe .peekKind ?_
      split
      · exact .reportHere_bind
      · exact .idle

theorem accessor?_brackets : accessor?.Brackets place silent source awaited awaited := by
  refine .observe .peekKind ?_
  split
  next h =>
    refine .attempt_bind (accessorHead_brackets ?_) (fun found _ => ?_) .idle
    · obtain hget | hset := by simpa using h
      · exact hget ▸ rfl
      · exact hset ▸ rfl
    · obtain ⟨isGetter, key⟩ := found
      refine .map ?_
      split
      · exact getterRest_brackets key
      · exact setterRest_brackets key
  next => exact .idle

/-! ## Interfaces and object types -/

theorem namedMember_brackets (readonly : Bool) :
    (namedMember readonly).Brackets place silent source awaited awaited := by
  refine .bind propertyName_brackets fun _ _ => .bind (.skipIf rfl) fun _ _ =>
    .observe .peekKind ?_
  split
  · exact .bind signature_brackets fun _ _ => .idle
  · exact .bind (typeAfter_brackets rfl) fun _ _ => .idle

theorem keyedMember_brackets : keyedMember.Brackets place silent source awaited awaited := by
  obtain ⟨followed, hfollowed⟩ := modifierFollowed_observes source
  refine .observe .peekKind <| .observe hfollowed ?_
  refine .when (fun h => ?_) (fun _ _ => id) fun _ => ?_
  · simp only [Bool.and_eq_true, decide_eq_true_eq] at h
    exact .advance fun _ => .of_plain (h.1 ▸ rfl)
  refine .bind (indexSignature?_brackets _) fun index? _ => ?_
  cases index? with
  | some => exact .idle
  | none =>
      refine .bind accessor?_brackets fun accessor? _ => ?_
      cases accessor? with
      | some accessor => cases accessor <;> exact .idle
      | none => exact namedMember_brackets _

theorem member_brackets : member.Brackets place silent source awaited awaited := by
  refine .spanned <| .observe .peekKind <| .observe (.kindAhead 1) ?_
  split
  · exact .bind signature_brackets fun _ _ => .idle
  · split
    next h =>
      simp only [Bool.and_eq_true, decide_eq_true_eq] at h
      exact .plain_bind (h.1 ▸ rfl) <| .bind signature_brackets fun _ _ => .idle
    next => exact keyedMember_brackets

/-! ## Lists of members -/

omit [place.Bracketed] in
theorem endMember_brackets : endMember.Brackets place silent source awaited awaited := by
  refine .observe .peek ?_
  split
  next h =>
    refine .plain_bind ?_ <| .idle
    obtain hsemicolon | hcomma := by simpa using h
    · exact hsemicolon ▸ rfl
    · exact hcomma ▸ rfl
  next =>
    split
    · exact .idle
    · exact .report_bind

omit [place.Bracketed] in
/-- If a member does not end, that is reported. -/
theorem endMember_ends :
    endMember.Carries place silent source (fun _ => False) fun ended _ => ended = false := by
  refine .observe .peek ?_
  split
  · exact .advance_bind (M := fun _ => False) (fun _ => id) <| .pure fun _ => nofun
  · split
    · exact .pure fun _ => nofun
    · exact .report_bind

omit [place.Bracketed] in
theorem memberList_brackets {skips : Kind → Bool} {element : Parser α}
    (hskips : ∀ kind, skips kind = true → isBracket kind = false)
    (helement : ∀ source, element.Brackets place False source awaited awaited) :
    (memberList skips element).Brackets place silent source awaited awaited := by
  refine .collect fun source => .observe .peekKind ?_
  split
  next => exact .idle
  next =>
    split
    next h => exact .plain_bind (hskips _ h) <| .idle
    next =>
      -- A member that fails was reported, and so was one that does not end.
      refine .settle_bind (helement source) fun found rest => ?_
      refine .bind_of_never endMember_brackets endMember_ends fun ended rest hended => ?_
      obtain rfl : ended = true := by simpa using hended
      exact .idle

theorem members_brackets : members.Brackets place silent source awaited awaited := by
  refine memberList_brackets (fun kind hkind => ?_) fun _ => member_brackets
  obtain rfl | rfl := by simpa using hkind
  · rfl
  · rfl

/-! ## Classes -/

omit [place.Bracketed] in
theorem isBracket_of_classModifier {kind : Kind} {modifier : Modifier}
    (h : classModifier? kind = some modifier) : isBracket kind = false := by
  unfold classModifier? at h
  split at h
  all_goals first | rfl | cases h

omit [place.Bracketed] in
theorem classModifiers_brackets :
    classModifiers.Brackets place silent source awaited awaited := by
  refine .loop (I := fun _ => Nests false awaited) (fun modifiers source => ?_) _
  refine .observe .peekKind ?_
  split
  next h =>
    obtain ⟨followed, hfollowed⟩ := modifierFollowed_observes source
    refine .observe hfollowed ?_
    split
    · split
      · exact .reportHere_bind
      · exact .plain_bind (isBracket_of_classModifier h) <| .idle
    · exact .idle
  next => exact .idle

theorem namedClassMember_brackets :
    namedClassMember.Brackets place silent source awaited awaited := by
  refine .bind propertyName_brackets fun _ _ => .bind (.skipIf rfl) fun isOptional _ => ?_
  refine .when (M := Nests false awaited) (fun _ => .skipIf rfl) (fun _ _ => id) fun _ => ?_
  refine .observe .peekKind ?_
  split
  · exact .bind signature_brackets fun _ _ => .bind skipBody_brackets fun _ _ => .idle
  · exact .bind (typeAfter_brackets rfl) fun _ _ =>
      .bind (skipUnsupportedInitializer_brackets _) fun _ _ => .idle

theorem classMemberKind_brackets (modifiers : Modifiers) :
    (classMemberKind modifiers).Brackets place silent source awaited awaited := by
  refine .observe .peekKind ?_
  split
  · exact .reportHere_bind
  · refine .observe (.bind .peek (.bind (.kindAhead 1) (.pure _))) ?_
    split
    next h =>
      simp only [Bool.and_eq_true, Bool.or_eq_true, decide_eq_true_eq] at h
      refine .plain_bind ?_ <| .bind signature_brackets fun _ _ =>
        .bind skipBody_brackets fun _ _ => .idle
      obtain hname | hstring := h.1.1
      · exact hname ▸ rfl
      · exact hstring ▸ rfl
    · refine .bind (indexSignature?_brackets _) fun index? _ => ?_
      cases index? with
      | some => exact .idle
      | none =>
          refine .bind accessor?_brackets fun accessor? _ => ?_
          cases accessor? with
          | some accessor =>
              cases accessor <;> exact .bind skipBody_brackets fun _ _ => .idle
          | none => exact namedClassMember_brackets

theorem classMember_brackets : classMember.Brackets place silent source awaited awaited :=
  .spanned <| .bind classModifiers_brackets fun _ _ =>
    .bind (classMemberKind_brackets _) fun _ _ => .idle

theorem classMembers_brackets : classMembers.Brackets place silent source awaited awaited := by
  refine memberList_brackets (fun kind hkind => ?_) fun _ => classMember_brackets
  obtain rfl := beq_iff_eq.mp hkind
  rfl

end

end DeclFile.Parser
