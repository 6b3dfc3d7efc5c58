import DeclFile.Proofs.Reading.Function

/-! # Reading types

What the parsers of the forms of types read. A primary type is one node. Around it, a broken
suffix or the rest of a broken conditional type may have been read and left out, and a
leading mark of a union with one operand is left out always.
-/

namespace DeclFile.Parser

variable {run : Run} {failing : Prop} {setting : Setting} [setting.Grounded] {source : TokenStream}

/-! ## Tuples, object types and template literals -/

omit [setting.Grounded] in
theorem labelFollows_observes (source : TokenStream) (skipped : Nat) :
    ∃ found, Observes (labelFollows skipped) source found :=
  ⟨_, (Observes.kindAhead _).bind ((Observes.kindAhead _).bind
    ((Observes.kindAhead _).bind (Observes.pure _)))⟩

theorem plainElement_meets (h : setting.Started source) :
    plainElement.Meets run setting source (¬run.clean) fun read element =>
      Laid run Gap.any read [element.outline] := by
  refine Meets.bind (M := fun read (found : (Ty × Bool) × Span) => if found.1.2 = true
    then Over run read (.plain found.2 [found.1.1.outline])
    else Laid run Gap.any read [found.1.1.outline]) (.withSpan ?_) fun {read found _} _ hread => ?_
  · refine (type_meets h).bind fun {_ type _} _ htype => ?_
    refine Meets.bind (M := fun read found => if found = true then read ≠ [] else read = [])
      (.skipIf (by simp) (by simp) (by simp)) fun {mark found _} _ hmark => .pure ?_
    refine ⟨by simp [htype.ne_nil], ?_⟩
    cases found with
    | true => simpa using (htype.append (Laid.passed mark)).joined (by simp [htype.ne_nil])
    | false =>
        obtain rfl : mark = [] := by simpa using hmark
        simpa using htype
  · obtain ⟨⟨type, isOptional⟩, span⟩ := found
    cases isOptional with
    | true =>
        have hinner : Laid run Gap.any read [.plain span [type.outline]] := Over.laid hread
        exact .pure (by simpa [TupleElement.outline, TyKind.outline] using hinner.wrap)
    | false =>
        have hinner : Laid run Gap.any read [type.outline] := hread
        exact .pure (by simpa [TupleElement.outline, Ty.span_outline] using hinner.wrap)

/-- A question mark after the type belongs to the type, whether it may stand there or not. -/
theorem labelledElement_meets : labelledElement.Meets run setting source (¬run.clean)
    fun read element => Over run read element.outline := by
  refine .node ((Meets.passIf (by simp)).bind fun {dots _ _} _ _ => ?_)
  refine anyIdent_meets.bind fun {name label _} hfollows hlabel => ?_
  have hstarted := hfollows.started hlabel.ne_nil
  refine (Meets.passIf (by simp)).bind fun {mark _ _} hmark _ => ?_
  refine (Meets.pass (by simp)).bind fun {colon _ _} hcolon _ => ?_
  refine (type_meets (hcolon.stays_started (hmark.stays_started hstarted))).bind
    fun {_ type _} _ htype => Observes.peekKind.meets ?_
  have hfinal {isOptional rest : Bool} {found : Ty} {read : List Token}
      (hfound : Laid run Gap.any read [found.outline]) :
      Over run (dots ++ (name ++ (mark ++ (colon ++ read))))
        (TupleElement.mk (some label) isOptional rest found
          (extent run.file (dots ++ (name ++ (mark ++ (colon ++ read)))))).outline := by
    have hparts := (Laid.passed dots).append (hlabel.laid.append
      ((Laid.passed (mark ++ colon)).append hfound))
    simpa [TupleElement.outline] using hparts.joined (by simp [hlabel.ne_nil])
  split
  next hquestion =>
    obtain ⟨before, node, after, rfl, hnode⟩ := htype.exists_node
    have hspans : Spans run.file node type.span := by simpa [Ty.span_outline] using hnode.spans
    refine Meets.bind (M := fun read (found : Token × Span) => ∃ marker, read = [marker] ∧
        found = (marker, extent run.file (node ++ (after ++ [marker]))))
      (.withSpan_of_spans hspans _ (.advance (by simp [hquestion]) ⟨by simp, _, rfl, rfl⟩))
      fun {_ found _} hfollows hfound => ?_
    obtain ⟨marker, rfl, rfl⟩ := hfound
    have hmarks : Marks setting.file setting.text marker.span := hfollows.marks_token (by simp)
    refine Meets.bind (M := fun read _ => read = [] ∧ ¬run.clean)
      (.report hmarks fun hnoisy => ⟨rfl, hnoisy⟩) fun _ hread => .pure ?_
    obtain ⟨rfl, -⟩ := hread
    refine hfinal ?_
    have hmarked := (hnode.laid.append (Laid.passed (after ++ [marker]))).joined (by simp)
    simpa [TyKind.outline] using (Laid.passed before).append hmarked.laid
  next => exact .pure (hfinal (by simpa using htype))

theorem tupleElement_meets (h : setting.Started source) :
    tupleElement.Meets run setting source (¬run.clean) fun read element =>
      Laid run Gap.any read [element.outline] := by
  refine (Observes.nextIs _).meets ?_
  obtain ⟨found, hfound⟩ := labelFollows_observes source
    (source.peek.kind == .mark .ellipsis).toNat
  refine hfound.meets ?_
  split
  · exact labelledElement_meets.mono Over.laid
  · exact plainElement_meets h

theorem tupleType_meets (hkind : source.peek.kind ≠ .endOfText) :
    tupleType.Meets run setting source (¬run.clean) fun read kind =>
      Over run read (kind.outline (extent run.file read)) := by
  refine (Meets.skip_some hkind).bind fun {opening _ _} hfollows hopening => ?_
  have hstarted := hfollows.started hopening
  refine (Meets.commaSeparated trivial fun hread _ =>
    .elementOrStop (tupleElement_meets (hread.stays_started hstarted))).bind
      fun _ helements => ?_
  refine (Meets.passOrReport (by simp)).bind fun {closing _ _} _ _ => .pure ?_
  have hparts := (Laid.passed opening).append (helements.append (Laid.passed closing))
  simpa [TyKind.outline, elementOutlines_eq_map] using hparts.joined (by simp [hopening])

omit [setting.Grounded] in
theorem mappedModifier_meets {kind : Kind} (hkind : kind ≠ .endOfText) :
    (mappedModifier kind).Meets run setting source (¬run.clean) fun _ _ => True := by
  refine Observes.peekKind.meets ?_
  split
  · refine Meets.skip.bind fun _ _ => (Meets.pass hkind).bind fun _ _ => .pure trivial
  · refine (Meets.passIf hkind).bind fun _ _ => ?_
    split
    · exact .pure trivial
    · exact .pure trivial

theorem requiredTypeAfter_meets {kind : Kind} (hkind : kind ≠ .endOfText)
    (h : setting.Started source) :
    (requiredTypeAfter kind).Meets run setting source (¬run.clean) fun read type? =>
      Laid run Gap.any read (optionalTypeOutline type?) := by
  refine (Meets.passIf hkind).bind fun {mark found _} hfollows _ => ?_
  cases found with
  | false => exact .pure (by simpa [optionalTypeOutline] using Laid.passed mark)
  | true =>
      refine (type_meets (hfollows.stays_started h)).bind fun _ htype => .pure ?_
      simpa [optionalTypeOutline] using (Laid.passed mark).append htype

theorem mappedType_meets : mappedType.Meets run setting source (¬run.clean) fun read mapped =>
    read ≠ [] ∧ Laid run Gap.any read mapped.parts := by
  refine (Meets.pass (by simp)).bind fun {opening _ _} hfollows hopening => ?_
  have hstarted := hfollows.started hopening
  refine (mappedModifier_meets (by simp)).bind fun {readonly _ _} hreadonly _ => ?_
  refine (Meets.pass (by simp)).bind fun {bracket _ _} hbracket _ => ?_
  refine ident_meets.bind fun hname hkey => ?_
  refine (Meets.pass (by simp)).bind fun {word _ _} hword _ => ?_
  replace hstarted := hword.stays_started (hname.stays_started (hbracket.stays_started
    (hreadonly.stays_started hstarted)))
  refine (type_meets hstarted).bind fun hfollows hconstraint => ?_
  replace hstarted := hfollows.stays_started hstarted
  refine (requiredTypeAfter_meets (by simp) hstarted).bind fun hfollows hnameType => ?_
  replace hstarted := hfollows.stays_started hstarted
  refine (Meets.pass (by simp)).bind fun {closing _ _} hclosing _ => ?_
  refine (mappedModifier_meets (by simp)).bind fun {optional _ _} hoptional _ => ?_
  replace hstarted := hoptional.stays_started (hclosing.stays_started hstarted)
  refine (requiredTypeAfter_meets (by simp) hstarted).bind fun _ hvalue => ?_
  refine (Meets.passIf (by simp)).bind fun {semicolon _ _} _ _ => ?_
  refine Meets.when (fun _ => True) (fun _ => (Meets.passIf (by simp)).trivially)
    (fun _ => trivial) fun {comma _} _ _ => ?_
  refine (Meets.pass (by simp)).bind fun {brace _ _} _ _ => .pure ⟨by simp [hopening], ?_⟩
  have hparts := (Laid.passed (opening ++ (readonly ++ bracket))).append
    (hkey.laid.append ((Laid.passed word).append (hconstraint.append (hnameType.append
      ((Laid.passed (closing ++ optional)).append (hvalue.append
        (Laid.passed (semicolon ++ (comma ++ brace)))))))))
  simpa [MappedTy.parts] using hparts

theorem braceType_meets (hkind : source.peek.kind = .mark .openBrace) :
    braceType.Meets run setting source (¬run.clean) fun read kind =>
      Over run read (kind.outline (extent run.file read)) := by
  refine Meets.attempt_bind (fun _ => mappedType_meets.quietly) (fun _ hread => .pure ?_)
    fun hfollows => ?_
  · simpa [TyKind.outline] using hread.2.joined hread.1
  · rw [← hfollows.peek_of_nil] at hkind
    refine Meets.bind (M := fun read token => read = [token] ∧ token.kind = .mark .openBrace)
      (.advance (by simp [hkind]) ⟨rfl, hkind⟩) fun {_ opening _} hfollows hopening => ?_
    obtain ⟨rfl, hopening⟩ := hopening
    refine (Setting.Grounded.meets .members (hfollows.started (by simp))).bind
      fun _ hmembers => ?_
    refine (Meets.close hmembers).bind fun _ hclosed => .pure ?_
    simpa [TyKind.outline, memberOutlines_eq_map] using
      (Bodied.bodied .nothing hopening hclosed).joined (by simp)

omit [setting.Grounded] in
theorem templateOutlines_textPart (text : String) : templateOutlines (textPart text) = [] := by
  unfold textPart
  split <;> simp [templateOutlines]

theorem templateRest_meets (h : setting.Started source) :
    templateRest.Meets run setting source (¬run.clean) fun read parts =>
      Laid run Gap.any read (templateOutlines parts) := by
  refine .map (.collect ?_ fun {read parts rest} hfollows hread => ?_)
  · simpa using Laid.nothing
  · refine (type_meets (hfollows.stays_started h)).bind fun {more type _} _ htype => ?_
    have hpart (mark : List Token) {texts : List TemplatePart}
        (htexts : templateOutlines texts = []) :
        Laid run Gap.any (read ++ (more ++ mark))
          (templateOutlines (parts ++ [.type type :: texts]).flatten) := by
      simpa [htexts] using hread.append (htype.append (Laid.passed mark))
    refine Observes.peek.meets ?_
    split
    · refine Meets.skip.bind fun {mark _ _} _ _ => .pure ⟨by simp [htype.ne_nil], ?_⟩
      simpa using hpart mark (templateOutlines_textPart _)
    · refine Meets.skip.bind fun {mark _ _} _ _ => .pure ⟨by simp, ?_⟩
      simpa using hpart mark (templateOutlines_textPart _)
    · refine Meets.bind (M := fun read _ => read = [] ∧ ¬run.clean)
        (.reportHere fun hnoisy => ⟨rfl, hnoisy⟩) fun _ hread => .pure ⟨by simp, ?_⟩
      have hnone : templateOutlines [] = [] := by simp
      simpa [hread.1] using hpart [] hnone

theorem templateType_meets (hkind : source.peek.kind ≠ .endOfText) :
    templateType.Meets run setting source (¬run.clean) fun read kind =>
      Over run read (kind.outline (extent run.file read)) := by
  refine (Meets.skip_some hkind).bind fun {head token _} hfollows hhead => ?_
  have hfinal {rest : List Token} {parts : List TemplatePart}
      (hparts : Laid run Gap.any rest (templateOutlines parts)) :
      Over run (head ++ rest) ((TyKind.template (textPart token.text ++ parts)).outline
        (extent run.file (head ++ rest))) := by
    simpa [TyKind.outline, templateOutlines_textPart] using
      ((Laid.passed head).append hparts).joined (by simp [hhead])
  split
  · refine (templateRest_meets (hfollows.started hhead)).bind fun _ hrest => .pure ?_
    simpa using hfinal hrest
  · refine Meets.bind (M := fun read parts => read = [] ∧ parts = []) (.pure ⟨rfl, rfl⟩)
      fun _ hnone => .pure ?_
    obtain ⟨rfl, rfl⟩ := hnone
    exact hfinal (by simpa [templateOutlines] using Laid.nothing)

/-! ## Names and other primary types -/

theorem importType_meets : importType.Meets run setting source (¬run.clean) fun read imported =>
    read ≠ [] ∧ Laid run Gap.any read imported.parts := by
  refine (Meets.pass (by simp)).bind fun {word _ _} _ hword => ?_
  refine (Meets.pass (by simp)).bind fun {opening _ _} _ _ => ?_
  refine stringLit_meets.bind fun _ hspecifier => ?_
  refine (Meets.pass (by simp)).bind fun {closing _ _} _ _ => ?_
  refine Meets.ifNext (fun read name? =>
      Laid run Gap.any read (name?.toList.map EntityName.outline))
    (by simp) (fun {dot _} _ _ => ?_) .nothing fun _ hqualifier => ?_
  · refine .map (qualifier_meets.mono fun hname => ?_)
    simpa using (Laid.passed [dot]).append hname.laid
  refine typeArgs_meets.bind fun _ hargs => .pure ⟨by simp [hword], ?_⟩
  have hparts := (Laid.passed (word ++ opening)).append (hspecifier.laid.append
    ((Laid.passed closing).append (hqualifier.append hargs)))
  simpa [ImportTy.parts] using hparts

theorem queryType_meets (hkind : source.peek.kind ≠ .endOfText) :
    queryType.Meets run setting source (¬run.clean) fun read kind =>
      Over run read (kind.outline (extent run.file read)) := by
  refine (Meets.skip_some hkind).bind fun {word _ _} _ hword => Observes.peekKind.meets ?_
  have hrest {first : Parser QueryTarget} {rest : TokenStream}
      (hfirst : first.Meets run setting rest (¬run.clean) fun read target =>
        Laid run Gap.any read target.parts) :
      (first >>= fun target => typeArgs >>= fun args => Pure.pure (TyKind.typeOf target args)).Meets
        run setting rest (¬run.clean) fun read kind =>
          Over run (word ++ read) (kind.outline (extent run.file (word ++ read))) := by
    refine hfirst.bind fun _ htarget => typeArgs_meets.bind fun _ hargs => .pure ?_
    simpa [TyKind.outline] using ((Laid.passed word).append (htarget.append hargs)).joined
      (by simp [hword])
  split
  · exact hrest (.map (importType_meets.mono fun hread => by simpa [QueryTarget.parts] using hread.2))
  · exact hrest (.map (entityName_meets.mono fun hname => by
      simpa [QueryTarget.parts] using hname.laid))

omit [setting.Grounded] in
/-- A single token is a type that has no parts. -/
theorem tokenKind_meets {kind : TyKind} (hkind : source.peek.kind ≠ .endOfText)
    (hparts : ∀ span, kind.outline span = .plain span []) :
    (advance >>= fun _ => Pure.pure kind).Meets run setting source failing fun read kind =>
      Over run read (kind.outline (extent run.file read)) := by
  refine (Meets.skip_some hkind).bind fun {word _ _} _ hword => .pure ?_
  rw [hparts]
  exact (Laid.passed (word ++ [])).joined (by simp [hword])

theorem namedType_meets : namedType.Meets run setting source (¬run.clean) fun read kind =>
    Over run read (kind.outline (extent run.file read)) := by
  refine Observes.peek.meets ((Observes.kindAhead 1).meets ?_)
  split
  next hname =>
    exact tokenKind_meets (by simp_all) fun span => by simp [TyKind.outline]
  next =>
    split
    · refine .map (typeRef_meets.mono fun href => ?_)
      simpa [TyKind.outline] using href.around
    · exact .refuse

omit [setting.Grounded] in
theorem negativeType_meets (hkind : source.peek.kind ≠ .endOfText) :
    negativeType.Meets run setting source (¬run.clean) fun read kind =>
      Over run read (kind.outline (extent run.file read)) := by
  refine (Observes.kindAhead 1).meets ?_
  split
  · refine (Meets.skip_some hkind).bind fun {sign _ _} _ hsign => ?_
    refine Meets.skip.bind fun {digits _ _} _ _ => .pure ?_
    have hparts : Laid run Gap.any (sign ++ (digits ++ [])) [] := .passed _
    split
    all_goals simpa [TyKind.outline] using hparts.joined (by simp [hsign])
  · exact .refuse

theorem primaryKind_meets : primaryKind.Meets run setting source (¬run.clean) fun read kind =>
    Over run read (kind.outline (extent run.file read)) := by
  refine Observes.peek.meets ?_
  split
  next primitive hprimitive =>
    refine tokenKind_meets (fun hend => ?_) fun span => by simp [TyKind.outline]
    simp [hend, primitive?] at hprimitive
  next =>
    split
    next hkind => exact tokenKind_meets (by simp [hkind]) fun span => by simp [TyKind.outline]
    next hkind => exact tokenKind_meets (by simp [hkind]) fun span => by simp [TyKind.outline]
    next hkind => exact tokenKind_meets (by simp [hkind]) fun span => by simp [TyKind.outline]
    next hkind => exact tokenKind_meets (by simp [hkind]) fun span => by simp [TyKind.outline]
    next hkind => exact tokenKind_meets (by simp [hkind]) fun span => by simp [TyKind.outline]
    next hkind => exact negativeType_meets (by simp [hkind])
    next hkind => exact templateType_meets (by simp [hkind])
    next hkind => exact templateType_meets (by simp [hkind])
    next hkind => exact tokenKind_meets (by simp [hkind]) fun span => by simp [TyKind.outline]
    next hkind => exact parenType_meets (by simp [hkind])
    next => exact genericFunctionType_meets
    next =>
      refine constructorType_meets.mono fun hread => ?_
      obtain ⟨function, rfl, hread, hparts⟩ := hread
      simpa [TyKind.outline] using hparts.joined hread
    next => exact abstractConstructorType_meets
    next hkind => exact tupleType_meets (by simp [hkind])
    next hkind => exact braceType_meets hkind
    next hkind => exact queryType_meets (by simp [hkind])
    next =>
      refine .map (importType_meets.mono fun hread => ?_)
      simpa [TyKind.outline] using hread.2.joined hread.1
    next hkind =>
      refine (Meets.skip_some (by simp [hkind])).bind fun {dots _ _} hfollows hdots => ?_
      refine (type_meets (hfollows.started hdots)).bind fun _ htype => .pure ?_
      simpa [TyKind.outline] using
        ((Laid.passed dots).append htype).joined (by simp [hdots])
    next => exact namedType_meets

/-! ## Suffixes and operators -/

/-- Only a broken suffix has nothing to add to a type. -/
theorem suffix_meets (hkind : source.peek.kind ≠ .endOfText) :
    suffix.Meets run setting source (¬run.clean) fun read found => read ≠ [] ∧ match found with
      | .array => True
      | .index type => Laid run Gap.any read [type.outline]
      | .broken => ¬run.clean := by
  refine (Meets.skip_some hkind).bind fun {opening _ _} hfollows hopening => ?_
  have hstarted := hfollows.started hopening
  refine (Meets.passIf (by simp)).bind fun {bracket _ _} hfollows _ => ?_
  split
  · exact .pure ⟨by simp [hopening], trivial⟩
  · refine Meets.optional_bind (type_meets (hfollows.stays_started hstarted)) (fun _ htype => ?_)
      fun _ hnoisy => .pure ⟨by simp [hopening], hnoisy⟩
    refine (Meets.passOrReport (by simp)).bind fun {closing _ _} _ _ => .pure ?_
    refine ⟨by simp [hopening], ?_⟩
    simpa using (Laid.passed (opening ++ bracket)).append (htype.append (Laid.passed closing))

theorem suffixedType_meets : suffixedType.Meets run setting source (¬run.clean)
    fun read type => Laid run Gap.any read [type.outline] := by
  refine (typeOf_meets primaryKind_meets).bind fun {base first _} _ hfirst => ?_
  refine .loop (fun read type => Over run (base ++ read) type.outline) (by simpa using hfirst)
    fun {read type rest} _ htype => Observes.peek.meets ?_
  split
  next hopen =>
    have hspans : Spans run.file (base ++ read) type.span := by
      simpa [Ty.span_outline] using htype.spans
    refine Meets.bind (M := fun more (found : Suffix × Span) => more ≠ [] ∧
        found.2 = extent run.file (base ++ (read ++ more)) ∧ match found.1 with
          | .array => True
          | .index type => Laid run Gap.any more [type.outline]
          | .broken => ¬run.clean)
      (.withSpan_of_spans hspans []
        ((suffix_meets (by simp_all)).mono fun h => ⟨h.1, h.1, by simp, h.2⟩))
      fun {more found _} _ hfound => ?_
    obtain ⟨found, span⟩ := found
    obtain ⟨hmore, rfl, hfound⟩ := hfound
    cases found with
    | array =>
        have hparts := (Over.laid htype).append (Laid.passed more)
        refine .pure ⟨by simpa using hmore, ?_⟩
        simpa [TyKind.outline] using hparts.joined (by simp [hmore])
    | index index =>
        have hparts := (Over.laid htype).append hfound
        refine .pure ⟨by simpa using hmore, ?_⟩
        simpa [TyKind.outline] using hparts.joined (by simp [hmore])
    | broken => exact .pure (by simpa using htype.laid.append (Laid.passed more))
  next => exact .pure (by simpa using htype.laid)

omit [setting.Grounded] in
/-- A type operator with its operand is one node. -/
theorem prefixed_meets {α : Type} {inner : Parser α} {form : α → TyKind} {forest : α → List Outline}
    (hform : ∀ result span, (form result).outline span = .plain span (forest result))
    (hkind : source.peek.kind ≠ .endOfText)
    (hinner : ∀ {rest}, setting.Started rest →
      inner.Meets run setting rest (¬run.clean) fun read result =>
        Laid run Gap.any read (forest result)) :
    (typeOf (advance >>= fun _ => inner >>= fun result => Pure.pure (form result))).Meets run
      setting source (¬run.clean) fun read type => Laid run Gap.any read [type.outline] := by
  refine (typeOf_meets ?_).mono Over.laid
  refine (Meets.skip_some hkind).bind fun {word _ _} hfollows hword => ?_
  refine (hinner (hfollows.started hword)).bind fun _ hresult => .pure ?_
  rw [hform]
  simpa using ((Laid.passed word).append hresult).joined (by simp [hword])

theorem inferredType_meets {inBound : Bool} (hkind : source.peek.kind ≠ .endOfText) :
    (inferredType inBound).Meets run setting source (¬run.clean) fun read kind =>
      Over run read (kind.outline (extent run.file read)) := by
  refine (Meets.skip_some hkind).bind fun {word _ _} hfollows hword => ?_
  have hstarted := hfollows.started hword
  refine ident_meets.bind fun {_ param _} hfollows hparam => Observes.peekKind.meets ?_
  split
  · refine (Setting.Grounded.meets (.constraint inBound)
      (hfollows.stays_started hstarted)).bind fun _ hconstraint => .pure ?_
    have hparts := (Laid.passed word).append (hparam.laid.append hconstraint)
    simpa [TyKind.outline] using hparts.joined (by simp [hword])
  · have hparts := (Laid.passed word).append (Over.laid hparam)
    refine .pure ?_
    simpa [TyKind.outline, optionalTypeOutline] using hparts.joined (by simp [hword])

theorem operatorType_meets {inBound : Bool} :
    (operatorType inBound).Meets run setting source (¬run.clean) fun read type =>
      Laid run Gap.any read [type.outline] := by
  refine Observes.peekKind.meets ((Observes.kindAhead 1).meets ?_)
  split
  next hkind =>
    exact prefixed_meets (fun _ _ => by rw [TyKind.outline]) (by simp [hkind])
      (Setting.Grounded.meets (.operand inBound))
  split
  next hkind =>
    refine (typeOf_meets ?_).mono Over.laid
    refine (Meets.skip_some (by simp_all)).bind fun {first _ _} _ hfirst => ?_
    refine Meets.skip.bind fun {second _ _} _ _ => .pure ?_
    have hparts : Laid run Gap.any (first ++ (second ++ [])) [] := .passed _
    simpa [TyKind.outline] using hparts.joined (by simp [hfirst])
  split
  next hkind =>
    exact prefixed_meets (fun _ _ => by rw [TyKind.outline]) (by simp_all)
      (Setting.Grounded.meets (.operand inBound))
  split
  next hkind => exact (typeOf_meets (inferredType_meets (by simp [hkind]))).mono Over.laid
  next => exact suffixedType_meets

omit [setting.Grounded] in
/-- A mark in front of a single operand belongs to no type. -/
theorem operands_meets {mark : Mark} {wrap : List Ty → TyKind} {operand : Parser Ty}
    (hwrap : ∀ types span, (wrap types).outline span = .plain span (typeOutlines types))
    (hoperand : ∀ {rest}, operand.Meets run setting rest (¬run.clean) fun read type =>
      Laid run Gap.any read [type.outline]) :
    (operands mark wrap operand).Meets run setting source (¬run.clean) fun read type =>
      Laid run Gap.any read [type.outline] := by
  have hkind : Kind.mark mark ≠ .endOfText := nofun
  unfold operands
  refine .spanned ((Meets.passIf hkind).bind fun {sign _ _} _ _ => ?_)
  refine hoperand.bind fun {_ first _} _ hfirst => (Observes.nextIs _).meets ?_
  split
  · refine (Meets.afterEach hoperand).bind fun _ hrest => .pure ⟨by simp [hfirst.ne_nil], ?_⟩
    have hparts := (Laid.passed sign).append (hfirst.append hrest)
    refine Over.laid ?_
    rw [Ty.outline_mk, hwrap]
    simpa [typeOutlines_eq_map] using hparts.joined (by simp [hfirst.ne_nil])
  · refine .pure ⟨by simp [hfirst.ne_nil], ?_⟩
    simpa using (Laid.passed sign).append hfirst

theorem unionType_meets {inBound : Bool} :
    (unionType inBound).Meets run setting source (¬run.clean) fun read type =>
      Laid run Gap.any read [type.outline] :=
  operands_meets (fun _ _ => by rw [TyKind.outline]) <|
    operands_meets (fun _ _ => by rw [TyKind.outline]) operatorType_meets

theorem conditionalRest_meets (hkind : source.peek.kind ≠ .endOfText) :
    conditionalRest.Meets run setting source (¬run.clean) fun read types =>
      Laid run Gap.any read [types.1.outline, types.2.1.outline, types.2.2.outline] := by
  refine (Meets.skip_some hkind).bind fun {word _ _} hfollows hword => ?_
  have hstarted := hfollows.started hword
  refine unionType_meets.bind fun hfollows hbound => ?_
  replace hstarted := hfollows.stays_started hstarted
  refine (Meets.pass (by simp)).bind fun {question _ _} hfollows _ => ?_
  replace hstarted := hfollows.stays_started hstarted
  refine (type_meets hstarted).bind fun hfollows hwhenTrue => ?_
  replace hstarted := hfollows.stays_started hstarted
  refine (Meets.pass (by simp)).bind fun {colon _ _} hfollows _ => ?_
  refine (type_meets (hfollows.stays_started hstarted)).bind fun _ hwhenFalse => .pure ?_
  have hparts := (Laid.passed word).append (hbound.append ((Laid.passed question).append
    (hwhenTrue.append ((Laid.passed colon).append hwhenFalse))))
  simpa using hparts

/-- What was read of the rest of a broken conditional type belongs to no type. -/
theorem conditionalType_meets : conditionalType.Meets run setting source (¬run.clean)
    fun read type => Laid run Gap.any read [type.outline] := by
  unfold conditionalType
  refine .spanned (unionType_meets.bind fun {read check _} _ hcheck => ?_)
  refine Observes.peek.meets ?_
  have hbroken {more : List Token} : Laid run Gap.any (read ++ more) [check.outline] := by
    simpa using hcheck.append (Laid.passed more)
  split
  next hextends =>
    refine Meets.bind (M := fun more (rest? : Option (Ty × Ty × Ty)) =>
        Laid run Gap.any more ((rest?.toList.flatMap
          fun types => [types.1, types.2.1, types.2.2]).map Ty.outline))
      (.optional_laid rfl (fun _ => rfl) ((conditionalRest_meets (by simp_all)).mono fun h => ?_))
      fun {more rest? _} _ hrest => .pure ⟨by simp [hcheck.ne_nil], ?_⟩
    · simpa using h
    · cases rest? with
      | none => exact hbroken
      | some types =>
          have hparts := (hcheck.append hrest).joined (by simp [hcheck.ne_nil])
          simpa [TyKind.outline] using Over.laid hparts
  next => exact .pure ⟨by simp [hcheck.ne_nil], hbroken⟩

theorem inferConstraint_meets {inBound : Bool} :
    (inferConstraint inBound).Meets run setting source failing fun read type? =>
      Laid run Gap.any read (optionalTypeOutline type?) := by
  refine .attempt (M := fun run read type => Laid run Gap.any read [Ty.outline type])
    (fun run => ?_) (fun htype => ?_) ?_
  · refine Meets.skip.bind fun {word _ _} _ _ => ?_
    refine unionType_meets.quietly.bind fun _ htype => Observes.peekKind.meets ?_
    split
    · exact .fail trivial
    · exact .pure (by simpa using (Laid.passed word).append htype)
  · simpa [optionalTypeOutline] using htype
  · simpa [optionalTypeOutline] using Laid.nothing

theorem wholeType_meets (h : setting.Started source) :
    wholeType.Meets run setting source (¬run.clean) fun read type =>
      Laid run Gap.any read [type.outline] := by
  refine (type_meets h).bind fun hfollows htype => Observes.peek.meets ?_
  refine Meets.when (fun _ => True) (fun _ => ?_) (fun _ => trivial)
    fun {more _} _ _ => .pure (by simpa using htype.append (Laid.passed more))
  exact .report (hfollows.admits_rest.marks_token (TokenStream.peek_mem_tokens _))
    fun _ => trivial

end DeclFile.Parser
