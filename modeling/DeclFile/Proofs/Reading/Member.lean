import DeclFile.Parser.Member
import DeclFile.Proofs.Reading.Type

/-! # Reading members

What the parsers of members read. Each member is a node, and in a clean run there is nothing
but separators between the members of a list.
-/

namespace DeclFile.Parser

variable {run : Run} {failing : Prop} {setting : Setting} [setting.Grounded] {source : TokenStream}

omit [setting.Grounded] in
theorem modifierFollowed_observes (source : TokenStream) :
    ∃ followed, Observes modifierFollowed source followed :=
  ⟨_, (Observes.look 1).bind (Observes.pure _)⟩

omit [setting.Grounded] in
theorem constructorFollows_observes (source : TokenStream) :
    ∃ follows, Observes constructorFollows source follows :=
  ⟨_, Observes.peek.bind ((Observes.kindAhead 1).bind (Observes.pure _))⟩

theorem indexHead_meets : indexHead.Meets run setting source (¬run.clean) fun read head =>
    read ≠ [] ∧ Laid run Gap.any read [head.1.outline, head.2.outline] := by
  refine (Meets.pass (by simp)).bind fun {opening _ _} hfollows hopening => ?_
  have hstarted := hfollows.started hopening
  refine ident_meets.bind fun hname hparam => ?_
  refine (Meets.pass (by simp)).bind fun {colon _ _} hcolon _ => ?_
  replace hstarted := hcolon.stays_started (hname.stays_started hstarted)
  refine (type_meets hstarted).bind fun _ hkey => ?_
  refine (Meets.pass (by simp)).bind fun {closing _ _} _ _ => .pure ⟨by simp [hopening], ?_⟩
  have hparts := (Laid.passed opening).append (hparam.laid.append
    ((Laid.passed colon).append (hkey.append (Laid.passed closing))))
  simpa using hparts

/-- Brackets that open no index signature are left unread. -/
theorem indexSignature?_meets {readonly : Bool} :
    (indexSignature? readonly).Meets run setting source (¬run.clean) fun read index? =>
      match index? with
      | some index => read ≠ [] ∧ Laid run Gap.any read index.parts
      | none => read = [] := by
  refine Observes.peekKind.meets ?_
  split
  · refine Meets.attempt_bind (fun _ => indexHead_meets.quietly) (fun hfollows hhead => ?_)
      fun _ => .pure rfl
    have hstarted := hfollows.started hhead.1
    refine (Meets.pass (by simp)).bind fun {colon _ _} hfollows _ => ?_
    refine (type_meets (hfollows.stays_started hstarted)).bind fun _ htype => .pure ?_
    refine ⟨by simp [hhead.1], ?_⟩
    simpa [IndexSignature.parts] using hhead.2.append ((Laid.passed colon).append htype)
  · exact .pure rfl

/-- The parts of an accessor. -/
def Accessor.parts : Accessor → List Outline
  | .getter key result => key.outline :: optionalTypeOutline result
  | .setter key param => [key.outline, param.outline]

omit [setting.Grounded] in
theorem accessorHead_meets : accessorHead.Meets run setting source True fun read head =>
    read ≠ [] ∧ Laid run Gap.any read [head.2.outline] := by
  refine Meets.skip.bind fun {word _ _} _ _ => Observes.atLineStart.meets ?_
  split
  · exact Meets.bind (M := fun _ _ => False) (.fail trivial) fun _ hfalse => hfalse.elim
  · refine propertyName_meets.quietly.bind fun _ hkey => Observes.peekKind.meets ?_
    split
    · refine .pure ⟨by simp [hkey.ne_nil], ?_⟩
      simpa using (Laid.passed word).append hkey.laid
    · exact .fail trivial

/-- Parameters with the span that a report about them has. -/
theorem spannedParams_meets : (withSpan none params).Meets run setting source (¬run.clean)
    fun read found => Marks setting.file setting.text found.2 ∧
      Laid run Gap.any read (paramOutlines found.1) :=
  .of_file fun hfile => .withSpan (params_meets.imp id fun hfollows hread =>
    ⟨hread.1, hfile ▸ hfollows.marks hread.1, hread.2⟩)

theorem getterRest_meets {key : PropertyName} :
    (getterRest key).Meets run setting source (¬run.clean) fun read accessor =>
      ∃ rest, accessor.parts = key.outline :: rest ∧ Laid run Gap.any read rest := by
  refine spannedParams_meets.bind fun {params found _} _ hparams => ?_
  refine Meets.when (fun _ => True) (fun _ => .report hparams.1 fun _ => trivial)
    (fun _ => trivial) fun {more _} _ _ => ?_
  refine (typeAfter_meets (by simp)).bind fun _ hresult => .pure ⟨_, rfl, ?_⟩
  simpa using (Laid.passed (params ++ more)).append hresult

theorem setterRest_meets {key : PropertyName} :
    (setterRest key).Meets run setting source (¬run.clean) fun read accessor =>
      ∃ rest, accessor.parts = key.outline :: rest ∧ Laid run Gap.any read rest := by
  refine spannedParams_meets.bind fun {read found _} hfollows hparams => ?_
  obtain ⟨_ | ⟨param, more⟩, span⟩ := found
  · exact Meets.bind (M := fun _ _ => ¬run.clean) (.report hparams.1 id)
      fun _ hnoisy => .fail hnoisy
  · have hparam : Laid run Gap.any read [param.outline] := by
      have hall := hparams.2
      rw [paramOutlines] at hall
      exact hall.first
    refine Meets.when (fun _ => True) (fun _ => .report hparams.1 fun _ => trivial)
      (fun _ => trivial) fun {reported _} _ _ => Observes.peekKind.meets ?_
    have hfinal {rest : List Token} : ∃ parts, (Accessor.setter key param).parts =
        key.outline :: parts ∧ Laid run Gap.any (read ++ (reported ++ rest)) parts := by
      refine ⟨_, rfl, ?_⟩
      simpa using hparam.append (Laid.passed (reported ++ rest))
    split
    next hcolon =>
      refine Meets.bind (M := fun read _ => read = []) (.reportHere fun _ => rfl)
        fun {_ _ middle} hfollows hread => ?_
      subst hread
      have hkind : middle.peek.kind ≠ .endOfText := by
        rw [hfollows.peek_of_nil, hcolon]
        simp
      refine (Meets.skip_some hkind).bind fun hfollows hmark => ?_
      refine (optionalType_meets (type_meets (hfollows.started hmark))).bind
        fun _ _ => .pure hfinal
    next => exact .pure hfinal

/-- A word that is no accessor is left unread. -/
theorem accessor?_meets : accessor?.Meets run setting source (¬run.clean) fun read accessor? =>
    match accessor? with
    | some accessor => read ≠ [] ∧ Laid run Gap.any read accessor.parts
    | none => read = [] := by
  refine Observes.peekKind.meets ?_
  split
  · refine Meets.attempt_bind (fun _ => accessorHead_meets) (fun {read head _} _ hhead => ?_)
      fun _ => .pure rfl
    obtain ⟨isGetter, key⟩ := head
    have hrest {more : List Token} {accessor : Accessor} (h : ∃ rest,
        accessor.parts = key.outline :: rest ∧ Laid run Gap.any more rest) :
        read ++ more ≠ [] ∧ Laid run Gap.any (read ++ more) accessor.parts := by
      obtain ⟨rest, hparts, hlaid⟩ := h
      refine ⟨by simp [hhead.1], ?_⟩
      rw [hparts]
      simpa using hhead.2.append hlaid
    cases isGetter with
    | true => exact .map (getterRest_meets.mono hrest)
    | false => exact .map (setterRest_meets.mono hrest)
  · exact .pure rfl

/-! ## Interfaces and object types -/

theorem namedMember_meets {readonly : Bool} :
    (namedMember readonly).Meets run setting source (¬run.clean) fun read kind =>
      read ≠ [] ∧ Laid run Gap.any read kind.parts := by
  refine propertyName_meets.bind fun _ hkey => ?_
  refine (Meets.passIf (by simp)).bind fun {mark _ _} _ _ => Observes.peekKind.meets ?_
  split
  · refine signature_meets.bind fun _ hsignature => .pure ⟨by simp [hkey.ne_nil], ?_⟩
    simpa [MemberKind.parts] using
      hkey.laid.append ((Laid.passed mark).append hsignature.2)
  · refine (typeAfter_meets (by simp)).bind fun _ htype => .pure ⟨by simp [hkey.ne_nil], ?_⟩
    simpa [MemberKind.parts] using hkey.laid.append ((Laid.passed mark).append htype)

theorem keyedMember_meets : keyedMember.Meets run setting source (¬run.clean) fun read kind =>
    read ≠ [] ∧ Laid run Gap.any read kind.parts := by
  refine Observes.peekKind.meets ?_
  obtain ⟨followed, hfollowed⟩ := modifierFollowed_observes source
  refine hfollowed.meets ?_
  refine Meets.when (fun _ => True) (fun _ => Meets.skip) (fun _ => trivial)
    fun {word _} _ _ => ?_
  refine indexSignature?_meets.bind fun {read index? _} _ hindex => ?_
  cases index? with
  | some index =>
      refine .pure ⟨by simp [hindex.1], ?_⟩
      simpa [MemberKind.parts] using (Laid.passed word).append hindex.2
  | none =>
      refine accessor?_meets.bind fun {more accessor? _} _ haccessor => ?_
      obtain rfl := (hindex : read = [])
      cases accessor? with
      | some accessor =>
          have hparts := (Laid.passed word).append haccessor.2
          cases accessor with
          | getter | setter =>
              exact .pure ⟨by simp [haccessor.1], by
                simpa [MemberKind.parts, Accessor.parts] using hparts⟩
      | none =>
          obtain rfl := (haccessor : more = [])
          refine namedMember_meets.mono fun hread => ⟨by simp [hread.1], ?_⟩
          simpa using (Laid.passed word).append hread.2

theorem member_meets : member.Meets run setting source (¬run.clean) fun read member =>
    Over run read member.outline := by
  refine .node (Observes.peekKind.meets ((Observes.kindAhead 1).meets ?_))
  have hover {kind : MemberKind} {read : List Token}
      (h : read ≠ [] ∧ Laid run Gap.any read kind.parts) :
      Over run read (Member.mk kind (extent run.file read)).outline := by
    simpa [Member.outline] using h.2.joined h.1
  split
  · refine signature_meets.bind fun _ hsignature => .pure (hover ?_)
    simpa [MemberKind.parts] using hsignature
  split
  · refine Meets.skip.bind fun {word _ _} _ _ => ?_
    refine signature_meets.bind fun _ hsignature => .pure (hover ⟨by simp [hsignature.1], ?_⟩)
    simpa [MemberKind.parts] using (Laid.passed word).append hsignature.2
  · exact keyedMember_meets.mono hover

/-! ## Lists of members -/

omit [setting.Grounded] in
/-- A member that does not end was reported. -/
theorem endMember_meets : endMember.Meets run setting source failing fun read ended =>
    Laid run (Gap.body [.semicolon, .comma]) read [] ∧ (ended = false → ¬run.clean) := by
  refine Observes.peek.meets ?_
  split
  next hkind =>
    refine Meets.bind (M := fun read _ => Laid run (Gap.body [.semicolon, .comma]) read [])
      (.advance (by rintro hend; simp [hend] at hkind) (.token ?_)) fun _ hread =>
        .pure ⟨by simpa using hread, by simp⟩
    simpa [Gap.body] using hkind
  split
  · exact .pure ⟨.nothing, by simp⟩
  · refine .of_admits fun hadmits => ?_
    refine Meets.bind (M := fun read _ => read = [] ∧ ¬run.clean)
      (.report (hadmits.marks_token (TokenStream.peek_mem_tokens _)) fun hnoisy => ⟨rfl, hnoisy⟩)
      fun _ hread => .pure ⟨by simpa [hread.1] using Laid.nothing, fun _ => hread.2⟩

omit [setting.Grounded] in
/-- Members lie one after another. A broken one was reported before it is skipped. -/
theorem memberList_meets {α : Type} {skips : Kind → Bool} {element : Parser α}
    {outline : α → Outline}
    (hskips : ∀ kind, skips kind = true → Gap.body [.semicolon, .comma] kind)
    (helement : ∀ {rest}, element.Meets run setting rest (¬run.clean) fun read found =>
      Over run read (outline found)) :
    (memberList skips element).Meets run setting source failing fun read found =>
      Laid run (Gap.body [.semicolon, .comma]) read (found.map outline) := by
  refine .collect .nothing fun {read found rest} _ hread => Observes.peekKind.meets ?_
  split
  · exact .pure ⟨by simp, by simpa using hread⟩
  next hgo =>
    have hkind : rest.peek.kind ≠ .endOfText := by simp_all
    split
    next hskip =>
      refine Meets.bind (M := fun more _ => more ≠ [] ∧
        Laid run (Gap.body [.semicolon, .comma]) more [])
        (.advance hkind ⟨by simp, .token (hskips _ hskip)⟩) fun _ hmore => .pure ?_
      exact ⟨by simp [hmore.1], by simpa using hread.append hmore.2⟩
    · refine Meets.settle_bind helement (fun _ hmore => ?_) fun {more _} hfollows hnoisy => ?_
      · refine endMember_meets.bind fun {_ ended _} _ hended => ?_
        have hdone := hread.append (hmore.laid.append hended.1)
        refine Meets.when (fun last => Laid run (Gap.body [.semicolon, .comma]) last [])
          (fun hnot => ?_) (fun _ => .nothing) fun _ hlast => .pure ⟨?_, ?_⟩
        · have hnoisy : ¬run.clean := hended.2 (by simpa using hnot)
          exact recoverMember_meets.mono fun _ => .of_noisy hnoisy
        · simp [hmore.ne_nil]
        · simpa using hdone.append hlast
      · refine recoverMember_meets.bind fun {last _ _} _ hlast => .pure ⟨fun _ => ?_, ?_⟩
        · intro hnil
          obtain ⟨rfl, hnil⟩ := List.append_eq_nil_iff.mp hnil
          rw [hfollows.peek_of_nil] at hlast
          exact hlast rfl hkind (by simpa using hnil)
        · have hlost : Laid run (Gap.body [.semicolon, .comma]) (more ++ last) [] :=
            .of_noisy hnoisy
          simpa using hread.append hlost

theorem members_meets : members.Meets run setting source failing fun read found =>
    Laid run (Gap.body [.semicolon, .comma]) read (found.map Member.outline) :=
  memberList_meets (fun kind hkind => by simpa [Gap.body] using hkind) member_meets

/-! ## Classes -/

omit [setting.Grounded] in
theorem classModifiers_meets : classModifiers.Meets run setting source failing
    fun _ _ => True := by
  refine .loop (fun _ _ => True) trivial fun {_ _ rest} _ _ => Observes.peekKind.meets ?_
  split
  next hmodifier =>
    have hkind : rest.peek.kind ≠ .endOfText := by
      intro hend
      simp [hend, classModifier?] at hmodifier
    obtain ⟨followed, hfollowed⟩ := modifierFollowed_observes rest
    refine hfollowed.meets ?_
    split
    · refine Meets.when (fun read => read = []) (fun _ => .reportHere fun _ => rfl)
        (fun _ => rfl) fun hfollows hread => ?_
      subst hread
      rw [← hfollows.peek_of_nil] at hkind
      exact (Meets.skip_some hkind).bind fun _ hword => .pure ⟨by simpa using hword, trivial⟩
    · exact .pure trivial
  · exact .pure trivial

theorem namedClassMember_meets : namedClassMember.Meets run setting source (¬run.clean)
    fun read kind => read ≠ [] ∧ Laid run Gap.any read kind.parts := by
  refine propertyName_meets.bind fun _ hkey => ?_
  refine (Meets.passIf (by simp)).bind fun {mark _ _} _ _ => ?_
  refine Meets.when (fun _ => True) (fun _ => (Meets.passIf (by simp)).trivially)
    (fun _ => trivial) fun {bang _} _ _ => Observes.peekKind.meets ?_
  split
  · refine signature_meets.bind fun _ hsignature => ?_
    refine skipBody_meets.bind fun {body _ _} _ _ => .pure ⟨by simp [hkey.ne_nil], ?_⟩
    have hparts := hkey.laid.append ((Laid.passed (mark ++ bang)).append
      (hsignature.2.append (Laid.passed body)))
    simpa [ClassMemberKind.parts] using hparts
  · refine (typeAfter_meets (by simp)).bind fun _ htype => ?_
    refine skipUnsupportedInitializer_meets.bind fun {initializer _ _} _ _ =>
      .pure ⟨by simp [hkey.ne_nil], ?_⟩
    have hparts := hkey.laid.append ((Laid.passed (mark ++ bang)).append
      (htype.append (Laid.passed initializer)))
    simpa [ClassMemberKind.parts] using hparts

theorem classMemberKind_meets {modifiers : Modifiers} :
    (classMemberKind modifiers).Meets run setting source (¬run.clean) fun read kind =>
      read ≠ [] ∧ Laid run Gap.any read kind.parts := by
  refine Observes.peekKind.meets ?_
  split
  · refine Meets.bind (M := fun _ _ => ¬run.clean) (.reportHere id) fun _ hnoisy => ?_
    exact skipGroup_meets.bind fun _ _ => .fail hnoisy
  obtain ⟨isConstructor, hconstructor⟩ := constructorFollows_observes source
  refine hconstructor.meets ?_
  split
  · refine Meets.skip.bind fun {word _ _} _ _ => signature_meets.bind fun _ hsignature => ?_
    refine skipBody_meets.bind fun {body _ _} _ _ => .pure ⟨by simp [hsignature.1], ?_⟩
    have hparts := (Laid.passed word).append (hsignature.2.append (Laid.passed body))
    simpa [ClassMemberKind.parts] using hparts
  refine indexSignature?_meets.bind fun {read index? _} _ hindex => ?_
  cases index? with
  | some index =>
      refine .pure ⟨by simp [hindex.1], ?_⟩
      simpa [ClassMemberKind.parts] using hindex.2
  | none =>
      obtain rfl := (hindex : read = [])
      refine accessor?_meets.bind fun {more accessor? _} _ haccessor => ?_
      cases accessor? with
      | some accessor =>
          cases accessor with
          | getter | setter =>
              refine skipBody_meets.bind fun {body _ _} _ _ =>
                .pure ⟨by simp [haccessor.1], ?_⟩
              simpa [ClassMemberKind.parts, Accessor.parts] using
                haccessor.2.append (Laid.passed body)
      | none =>
          obtain rfl := (haccessor : more = [])
          exact namedClassMember_meets

theorem classMember_meets : classMember.Meets run setting source (¬run.clean)
    fun read member => Over run read member.outline := by
  refine .node (classModifiers_meets.bind fun {words _ _} _ _ => ?_)
  refine classMemberKind_meets.bind fun _ hkind => .pure ?_
  have hparts := (Laid.passed words).append hkind.2
  simpa [ClassMember.outline] using hparts.joined (by simp [hkind.1])

theorem classMembers_meets : classMembers.Meets run setting source failing fun read found =>
    Laid run (Gap.body [.semicolon, .comma]) read (found.map ClassMember.outline) := by
  refine memberList_meets (fun kind hkind => ?_) classMember_meets
  simp_all [Gap.body]

end DeclFile.Parser
