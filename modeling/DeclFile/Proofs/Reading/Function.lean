import DeclFile.Parser.Type
import DeclFile.Proofs.Reading.Basic

/-! # Reading parameters and functions

What the parsers of parameters, type parameters and functions read, provided that the goals
they refer to do what they should.
-/

namespace DeclFile

/-- What reaching a goal should come to. -/
def Goal.Post (run : Run) : (goal : Goal) → List Token → goal.Result → Prop
  | .type, read, found => Laid run Gap.any read [Ty.outline found]
  | .operand _, read, found => Laid run Gap.any read [Ty.outline found]
  | .constraint _, read, found => Laid run Gap.any read (optionalTypeOutline found)
  | .members, read, found =>
      Laid run (Gap.body [.semicolon, .comma]) read (found.map Member.outline)
  | .classMembers, read, found =>
      Laid run (Gap.body [.semicolon, .comma]) read (found.map ClassMember.outline)
  | .block, read, found => Closed run [.semicolon] read (found.map Statement.outline)

/-- All goals that are reached in the setting do what they should. -/
class Setting.Grounded (setting : Setting) : Prop where
  meets {run : Run} (goal : Goal) {source : TokenStream} (h : setting.Started source) :
    (Parser.nested goal).Meets run setting source (¬run.clean) (goal.Post run)

@[simp] theorem Ty.outline_mk (kind : TyKind) (span : Span) :
    Ty.outline ⟨kind, span⟩ = kind.outline span := by
  rw [Ty.outline]

namespace Parser

variable {run : Run} {failing : Prop} {setting : Setting} [setting.Grounded] {source : TokenStream}

theorem type_meets (h : setting.Started source) :
    type.Meets run setting source (¬run.clean) fun read type =>
      Laid run Gap.any read [type.outline] :=
  Setting.Grounded.meets .type h

omit [setting.Grounded] in
theorem typeOf_meets {form : Parser TyKind}
    (h : form.Meets run setting source failing fun read kind =>
      Over run read (kind.outline (extent run.file read))) :
    (typeOf form).Meets run setting source failing fun read type =>
      Over run read type.outline :=
  .node (h.mono fun hover => by rwa [Ty.outline_mk])

omit [setting.Grounded] in
theorem optionalType_meets {inner : Parser Ty}
    (h : inner.Meets run setting source (¬run.clean) fun read type =>
      Laid run Gap.any read [type.outline]) :
    (optional inner).Meets run setting source failing fun read type? =>
      Laid run Gap.any read (optionalTypeOutline type?) :=
  .optional_laid (by rw [optionalTypeOutline]) (fun _ => by rw [optionalTypeOutline]) h

/-! ## Parameters -/

theorem typeArgs_meets : typeArgs.Meets run setting source failing fun read args =>
    Laid run Gap.any read (argOutlines args) := by
  refine Observes.peek.meets ?_
  split
  next hopen =>
    have hkind : source.peek.kind ≠ .endOfText := by simp_all
    refine (Meets.skip_some hkind).bind fun {opening _ _} hfollows hopening => ?_
    have hstarted := hfollows.started hopening
    refine (Meets.commaSeparated trivial fun hread _ =>
      .elementOrStop (type_meets (hread.stays_started hstarted))).bind fun _ hargs => ?_
    refine (Meets.passOrReport (by simp)).bind fun {closing _ _} _ _ => .pure ?_
    simpa [argOutlines, typeOutlines_eq_map] using
      (Laid.passed opening).append (hargs.append (Laid.passed closing))
  next => exact .pure (by simpa [argOutlines] using Laid.nothing)

theorem typeRef_meets : typeRef.Meets run setting source (¬run.clean) fun read ref =>
    Over run read ref.outline := by
  refine .node (entityName_meets.bind fun _ hname => ?_)
  refine typeArgs_meets.bind fun _ hargs => .pure ?_
  simpa [TypeRef.outline] using (hname.laid.append hargs).joined (by simp [hname.ne_nil])

omit [setting.Grounded] in
theorem variances_meets : variances.Meets run setting source failing fun _ _ => True := by
  refine .collect trivial fun {_ _ rest} _ _ => ?_
  refine Observes.peekKind.meets ((Observes.kindAhead 1).meets ?_)
  split
  next hword =>
    split
    · exact (Meets.skip_some (by simp [hword])).bind fun _ hread => .pure ⟨by simpa, trivial⟩
    · exact .pure ⟨by simp, trivial⟩
  · exact .pure ⟨by simp, trivial⟩

theorem typeAfter_meets {kind : Kind} (hkind : kind ≠ .endOfText) :
    (typeAfter kind).Meets run setting source failing fun read type? =>
      Laid run Gap.any read (optionalTypeOutline type?) := by
  refine (Meets.passIf hkind).bind fun {mark yes _} hfollows hmark => ?_
  cases yes with
  | false => exact .pure (by simpa [optionalTypeOutline] using Laid.passed mark)
  | true =>
      refine (optionalType_meets (type_meets (hfollows.started (hmark rfl)))).mono fun htype => ?_
      exact (Laid.passed mark).append htype

theorem typeParam_meets : typeParam.Meets run setting source (¬run.clean) fun read param =>
    Over run read param.outline := by
  refine .node (variances_meets.bind fun {words _ _} _ _ => ?_)
  refine ident_meets.bind fun _ hname => ?_
  refine (typeAfter_meets (by simp)).bind fun _ hconstraint => ?_
  refine (typeAfter_meets (by simp)).bind fun _ hdefault => .pure ?_
  have hparts := (Laid.passed words).append (hname.laid.append (hconstraint.append hdefault))
  simpa [TypeParam.outline] using hparts.joined (by simp [hname.ne_nil])

/-- Between type parameters there is no brace. -/
theorem typeParams_meets : typeParams.Meets run setting source failing fun read params =>
    Laid run Gap.head read (typeParamOutlines params) := by
  have hmark {kind : Kind} (hkind : kind ≠ .mark .openBrace) (token : Token)
      (heq : token.kind = kind) : Laid run Gap.head [token] [] := .token (heq ▸ hkind)
  refine Meets.bind (M := fun read _ => Laid run Gap.head read [])
    (.skipIf (by simp) (hmark (by simp)) fun _ => .nothing) fun {_ yes _} _ hopening => ?_
  cases yes with
  | false => exact .pure (by simpa [typeParamOutlines] using hopening)
  | true =>
      refine (Meets.commaSeparated Gap.head_comma fun _ _ =>
        .elementOrStop (typeParam_meets.mono Over.laid)).bind fun _ hparams => ?_
      refine Meets.bind (M := fun read _ => Laid run Gap.head read [])
        (.expectOrReport (by simp) (hmark (by simp)) .of_noisy) fun _ hclosing => .pure ?_
      simpa [typeParamOutlines_eq_map] using hopening.append (hparams.append hclosing)

omit [setting.Grounded] in
theorem paramModifiers_meets : paramModifiers.Meets run setting source failing
    fun _ _ => True := by
  refine Meets.bind (M := fun _ _ => True) (.collect trivial fun {_ _ rest} _ _ => ?_)
    fun _ _ => .pure trivial
  refine Observes.peekKind.meets ((Observes.kindAhead 1).meets ?_)
  split
  next hmodifier =>
    have hkind : rest.peek.kind ≠ .endOfText := by
      intro hend
      simp [hend, paramModifier?] at hmodifier
    split
    · exact (Meets.skip_some hkind).bind fun _ hread => .pure ⟨by simpa, trivial⟩
    · exact .pure ⟨by simp, trivial⟩
  · exact .pure ⟨by simp, trivial⟩

omit [setting.Grounded] in
theorem bindingName_meets : bindingName.Meets run setting source (¬run.clean) fun read name =>
    Over run read name.outline := by
  have hpattern (hkind : source.peek.kind ≠ .endOfText) :
      (spanned (fun _ span => BindingName.pattern span) skipGroup).Meets run setting source
        (¬run.clean) fun read name => Over run read name.outline :=
    .node (skipGroup_meets.mono fun hread => (Laid.passed _).joined (hread hkind))
  refine Observes.peekKind.meets ?_
  split
  next hkind => exact hpattern (by simp [hkind])
  next hkind => exact hpattern (by simp [hkind])
  next hkind =>
    exact (readIdent_meets (by simp [hkind])).bind fun _ hident =>
      .pure (by rw [List.append_nil]; exact hident)
  · exact ident_meets.bind fun _ hident =>
      .pure (by rw [List.append_nil]; exact hident)

omit [setting.Grounded] in
theorem skipUnsupportedInitializer_meets {cause : Cause} :
    (skipUnsupportedInitializer cause).Meets run setting source failing fun _ _ => True := by
  refine Observes.peekKind.meets ?_
  split
  · refine Meets.bind (M := fun _ _ => True) (.reportHere fun _ => trivial) fun _ _ => ?_
    exact Meets.skip.bind fun _ _ => skipInitializer_meets
  · exact .pure trivial

theorem param_meets : param.Meets run setting source (¬run.clean) fun read param =>
    Over run read param.outline := by
  refine .node (paramModifiers_meets.bind fun {modifiers _ _} _ _ => ?_)
  refine (Meets.passIf (by simp)).bind fun {dots _ _} _ _ => ?_
  refine bindingName_meets.bind fun _ hname => ?_
  refine (Meets.passIf (by simp)).bind fun {mark _ _} _ _ => ?_
  refine (typeAfter_meets (by simp)).bind fun _ htype => ?_
  refine skipUnsupportedInitializer_meets.bind fun {rest _ _} _ _ => .pure ?_
  have hparts := (Laid.passed (modifiers ++ dots)).append
    (hname.laid.append ((Laid.passed mark).append (htype.append (Laid.passed rest))))
  simpa [Param.outline] using hparts.joined (by simp [hname.ne_nil])

/-- A broken parameter is reported before it is skipped. -/
theorem paramTurn_meets : paramTurn.Meets run setting source (¬run.clean) fun read taken =>
    Laid run Gap.any read (taken.result?.toList.map Param.outline) := by
  refine Meets.bind (M := fun read found? => Laid run Gap.any read
    (found?.toList.map Param.outline)) (.optional_laid rfl (fun _ => rfl)
      (param_meets.mono Over.laid)) fun {_ found? _} _ hparam => ?_
  cases found? with
  | some found => exact .pure (by simpa using hparam)
  | none =>
      refine skipGroupsUntil_meets.bind fun {skipped _ _} _ _ => .pure ?_
      simpa using hparam.append (Laid.passed skipped)

theorem params_meets : params.Meets run setting source (¬run.clean) fun read params =>
    read ≠ [] ∧ Laid run Gap.any read (paramOutlines params) := by
  refine (Meets.pass (by simp)).bind fun {opening _ _} _ hopening => ?_
  refine (Meets.commaSeparated trivial fun _ _ => paramTurn_meets).bind fun _ hparams => ?_
  refine (Meets.passOrReport (by simp)).bind fun {closing _ _} _ _ => .pure ?_
  refine ⟨by simp [hopening], ?_⟩
  simpa [paramOutlines_eq_map] using
    (Laid.passed opening).append (hparams.append (Laid.passed closing))

/-! ## Functions -/

omit [setting.Grounded] in
theorem predicateSubject_meets : predicateSubject.Meets run setting source (¬run.clean)
    fun read subject => Over run read subject.outline := by
  refine Observes.peekKind.meets ?_
  split
  next hkind =>
    refine Meets.bind (M := fun read token => read = [token]) (.advance (by simp [hkind]) rfl)
      fun {_ token _} _ hread => .pure ?_
    simpa [hread, PredicateSubject.outline] using Over.token token
  · exact ident_meets.bind fun _ hident => .pure (by rw [List.append_nil]; exact hident)

/-- A predicate that reads no type after its subject, or fails, is no type at all. -/
theorem predicateRest_meets {asserts : Bool} :
    (predicateRest asserts).Meets run setting source True fun read kind =>
      ∃ subject type?, kind = .predicate asserts subject type? ∧ read ≠ [] ∧
        Laid run Gap.any read (subject.outline :: optionalTypeOutline type?) := by
  refine predicateSubject_meets.quietly.bind fun {_ subject rest} hfollows hsubject => ?_
  refine Observes.peek.meets ?_
  split
  next his =>
    have hstarted := hfollows.started hsubject.ne_nil
    refine Meets.skip.bind fun {mark _ _} hfollows _ => ?_
    refine (type_meets (hfollows.stays_started hstarted)).quietly.bind
      fun {_ type _} _ htype => .pure ⟨subject, some type, rfl, by simp [hsubject.ne_nil], ?_⟩
    simpa [optionalTypeOutline] using
      hsubject.laid.append ((Laid.passed mark).append htype)
  next =>
    split
    · refine .pure ⟨subject, none, by simp_all, by simp [hsubject.ne_nil], ?_⟩
      simpa [optionalTypeOutline] using hsubject.laid
    · exact .fail trivial

theorem predicate_meets : predicate.Meets run setting source True fun read type =>
    Over run read type.outline := by
  refine typeOf_meets (Observes.peekKind.meets ((Observes.kindAhead 1).meets ?_))
  have hrest (passed : List Token) {asserts : Bool} {rest : TokenStream} :
      (predicateRest asserts).Meets run setting rest True fun read kind =>
        Over run (passed ++ read) (kind.outline (extent run.file (passed ++ read))) := by
    refine predicateRest_meets.mono fun {read kind} hread => ?_
    obtain ⟨subject, type?, rfl, hread, hparts⟩ := hread
    simpa [TyKind.outline] using ((Laid.passed passed).append hparts).joined (by simp [hread])
  split
  · refine Meets.skip.bind fun _ _ => Observes.atLineStart.meets ?_
    split
    · exact .fail trivial
    · exact hrest _
  · simpa using hrest []

theorem resultType_meets (h : setting.Started source) :
    resultType.Meets run setting source (¬run.clean) fun read type =>
      Laid run Gap.any read [type.outline] := by
  refine Observes.peekKind.meets ((Observes.kindAhead 1).meets ?_)
  dsimp only
  split
  · exact Meets.attempt_bind (fun _ => predicate_meets)
      (fun _ htype => .pure (by simpa using htype.laid))
      fun hfollows => type_meets (hfollows.stays_started h)
  · exact type_meets h

/-- What is read besides the type parameters. -/
theorem functionTail_meets {typeParams : List TypeParam} :
    (functionTail typeParams).Meets run setting source (¬run.clean) fun read function =>
      read ≠ [] ∧ ∀ before, Laid run Gap.any before (typeParamOutlines typeParams) →
        Laid run Gap.any (before ++ read) function.parts := by
  refine params_meets.bind fun hfollows hparams => ?_
  have hstarted := hfollows.started hparams.1
  refine (Meets.pass (by simp)).bind fun {arrow _ _} hfollows _ => ?_
  refine (resultType_meets (hfollows.stays_started hstarted)).bind fun _ hresult => .pure ?_
  refine ⟨by simp [hparams.1], fun _ hbefore => ?_⟩
  simpa [FunctionTy.parts] using
    hbefore.append (hparams.2.append ((Laid.passed arrow).append hresult))

theorem genericFunction_meets : (typeParams >>= functionTail).Meets run setting source (¬run.clean)
    fun read function => read ≠ [] ∧ Laid run Gap.any read function.parts :=
  typeParams_meets.bind fun _ htypeParams => functionTail_meets.mono fun hread =>
    ⟨by simp [hread.1], hread.2 _ htypeParams.loosen⟩

theorem constructorType_meets {isAbstract : Bool} :
    (constructorType isAbstract).Meets run setting source (¬run.clean) fun read kind =>
      ∃ function, kind = .constructor isAbstract function ∧ read ≠ [] ∧
        Laid run Gap.any read function.parts := by
  refine (Meets.pass (by simp)).bind fun {word _ _} _ hword => ?_
  refine typeParams_meets.bind fun _ htypeParams => ?_
  refine functionTail_meets.bind fun {_ function _} _ hfunction => .pure ?_
  refine ⟨function, rfl, by simp [hword], ?_⟩
  simpa using (Laid.passed word).append (hfunction.2 _ htypeParams.loosen)

theorem abstractConstructorType_meets :
    abstractConstructorType.Meets run setting source (¬run.clean) fun read kind =>
      Over run read (kind.outline (extent run.file read)) := by
  refine Meets.bind (M := fun read kind? => ∀ kind, kind? = some kind →
    Over run read (kind.outline (extent run.file read))) (.attempt (M := fun run read kind =>
      Over run read (kind.outline (extent run.file read))) (fun _ => ?_) ?_ nofun)
    fun {_ kind? _} _ hkind => ?_
  · refine Meets.skip.bind fun {word _ _} _ _ => constructorType_meets.quietly.mono fun hread => ?_
    obtain ⟨function, rfl, hread, hparts⟩ := hread
    simpa [TyKind.outline] using ((Laid.passed word).append hparts).joined (by simp [hread])
  · rintro _ _ hkind _ ⟨⟩
    exact hkind
  · cases kind? with
    | some kind => exact .pure (by simpa using hkind kind rfl)
    | none => exact .refuse

theorem parenType_meets (hkind : source.peek.kind ≠ .endOfText) :
    parenType.Meets run setting source (¬run.clean) fun read kind =>
      Over run read (kind.outline (extent run.file read)) := by
  refine Meets.attempt_bind (fun _ => functionTail_meets.quietly) (fun _ hread => .pure ?_)
    fun hfollows => ?_
  · have hparts := hread.2 [] (by simpa [typeParamOutlines] using Laid.nothing)
    simpa [TyKind.outline] using hparts.joined (by simp [hread.1])
  · rw [← hfollows.peek_of_nil] at hkind
    refine (Meets.skip_some hkind).bind fun {opening _ _} hfollows hopening => ?_
    refine (type_meets (hfollows.started hopening)).bind fun _ htype => ?_
    refine (Meets.passOrReport (by simp)).bind fun {closing _ _} _ _ => .pure ?_
    have hparts := (Laid.passed opening).append (htype.append (Laid.passed closing))
    simpa [TyKind.outline] using hparts.joined (by simp [hopening])

theorem genericFunctionType_meets :
    genericFunctionType.Meets run setting source (¬run.clean) fun read kind =>
      Over run read (kind.outline (extent run.file read)) := by
  refine Meets.attempt_bind (fun _ => genericFunction_meets.quietly) (fun _ hread => .pure ?_)
    fun _ => .refuse
  simpa [TyKind.outline] using hread.2.joined hread.1

theorem signature_meets : signature.Meets run setting source (¬run.clean) fun read signature =>
    read ≠ [] ∧ Laid run Gap.any read signature.parts := by
  refine typeParams_meets.bind fun _ htypeParams => ?_
  refine params_meets.bind fun {_ _ rest} hfollows hparams => ?_
  have hstarted := hfollows.started hparams.1
  refine Meets.ifNext (fun read result? => Laid run Gap.any read (optionalTypeOutline result?))
    (by simp) (fun {mark _} hfollows _ => ?_) (by simpa [optionalTypeOutline] using Laid.nothing)
    fun _ hresult => .pure ?_
  · refine (optionalType_meets (resultType_meets (hfollows.stays_started hstarted))).mono
      fun hresult => ?_
    exact (Laid.passed [mark]).append hresult
  · refine ⟨by simp [hparams.1], ?_⟩
    simpa [Signature.parts] using htypeParams.loosen.append (hparams.2.append hresult)

end Parser

end DeclFile
