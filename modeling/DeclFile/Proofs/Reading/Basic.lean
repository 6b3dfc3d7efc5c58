import DeclFile.Parser.Name
import DeclFile.Parser.Recovery
import DeclFile.Proofs.Layout

/-! # Reading lists and names, and skipping

What the parsers that skip tokens do, and the rules for parsers of nodes and of lists of
nodes. Skipping always makes progress before the end of the text.
-/

namespace DeclFile

namespace Setting.Follows

variable {setting : Setting} {source rest : TokenStream} {read : List Token}

theorem peek_of_nil (h : setting.Follows source [] rest) : rest.peek = source.peek := by
  simp [TokenStream.peek, h.pending, h.last]

/-- What is left is determined by what was read. -/
theorem peek_eq {rest' : TokenStream} (h : setting.Follows source read rest)
    (h' : setting.Follows source read rest') : rest'.peek = rest.peek := by
  have hpending : rest'.pending = rest.pending :=
    List.append_cancel_left (h'.pending.symm.trans h.pending)
  simp [TokenStream.peek, hpending, h.last, h'.last]

theorem ahead_of_nil (h : setting.Follows source [] rest) (n : Nat) :
    rest.ahead n = source.ahead n := by
  simp [TokenStream.ahead, h.pending, h.last]

theorem peek_of_one {token : Token} (h : setting.Follows source [token] rest) :
    rest.peek = source.ahead 1 := by
  simp [TokenStream.peek, TokenStream.ahead, h.pending, h.last, List.headD_eq_head?_getD,
    List.head?_eq_getElem?]

end Setting.Follows

namespace Parser

variable {run : Run} {failing : Prop} {setting : Setting} {source : TokenStream}

namespace Meets

variable {α β : Type}

/-- Some tokens may be passed over before the rest goes on as if they had not been. -/
theorem when {condition : Prop} [Decidable condition] {first : Parser β} {rest : Parser α}
    (M : List Token → Prop) {Q : List Token → α → Prop}
    (hfirst : condition → first.Meets run setting source failing fun read _ => M read)
    (hskip : ¬condition → M [])
    (hrest : ∀ {read middle}, setting.Follows source read middle → M read →
      rest.Meets run setting middle failing fun more final => Q (read ++ more) final) :
    (if condition then first >>= fun _ => rest else rest).Meets run setting source failing
      Q := by
  split
  next h => exact (hfirst h).bind fun hfollows hread => hrest hfollows hread
  next h => exact of_admits fun hadmits => hrest hadmits.refl (hskip h)

/-- One thing or another may be read before the rest goes on. -/
theorem either {condition : Prop} [Decidable condition] {first second : Parser β}
    {rest : β → Parser α} (M : List Token → β → Prop) {Q : List Token → α → Prop}
    (hfirst : condition → first.Meets run setting source failing M)
    (hsecond : ¬condition → second.Meets run setting source failing M)
    (hrest : ∀ {read result middle}, setting.Follows source read middle → M read result →
      (rest result).Meets run setting middle failing fun more final => Q (read ++ more) final) :
    (if condition then first >>= fun result => rest result
      else second >>= fun result => rest result).Meets run setting source failing Q := by
  split
  next h => exact (hfirst h).bind hrest
  next h => exact (hsecond h).bind hrest

/-- Something is read after a token that may be there, and otherwise a default is taken. -/
theorem ifNext {kind : Kind} {inner : Parser β} {default : β} {rest : β → Parser α}
    (M : List Token → β → Prop) {Q : List Token → α → Prop} (hkind : kind ≠ .endOfText)
    (hinner : ∀ {token middle}, setting.Follows source [token] middle → token.kind = kind →
      inner.Meets run setting middle failing fun more result => M ([token] ++ more) result)
    (hdefault : M [] default)
    (hrest : ∀ {read result middle}, setting.Follows source read middle → M read result →
      (rest result).Meets run setting middle failing fun more final => Q (read ++ more) final) :
    (Parser.skipIf kind >>= fun found =>
      if found = true then inner >>= fun result => rest result
      else Pure.pure default >>= fun result => rest result).Meets run setting source
        failing Q := by
  refine bind (M := fun read found => if found = true
    then ∃ token, read = [token] ∧ token.kind = kind else read = [])
    (skipIf hkind (by simp) (by simp)) fun {read found _} hfollows hfound => ?_
  refine either (fun more result => M (read ++ more) result) (fun hyes => ?_) (fun hno => ?_)
    fun hmore hresult => ?_
  · obtain ⟨token, rfl, heq⟩ : ∃ token, read = [token] ∧ token.kind = kind := by
      simpa [hyes] using hfound
    exact hinner hfollows heq
  · obtain rfl : read = [] := by simpa [hno] using hfound
    exact .pure hdefault
  · simp only [← List.append_assoc]
    exact hrest (hfollows.trans hmore) hresult

theorem trivially {parser : Parser α} {Q : List Token → α → Prop}
    (h : parser.Meets run setting source failing Q) :
    parser.Meets run setting source failing fun _ _ => True :=
  h.mono fun _ => trivial

/-- Whatever is next, at most one token is read. -/
theorem skip : Parser.advance.Meets run setting source failing fun _ _ => True :=
  advance_any (fun _ => trivial) fun _ => trivial

/-- A word is no brace. -/
theorem skip_word {word : Keyword} (h : source.peek.kind = .word word) :
    Parser.advance.Meets run setting source failing fun read _ =>
      read ≠ [] ∧ Laid run Gap.head read [] :=
  advance (by simp [h]) ⟨by simp, .token (by simp [h, Gap.head])⟩

/-- Before the end of the text, reading a token makes progress. -/
theorem skip_some (h : source.peek.kind ≠ .endOfText) :
    Parser.advance.Meets run setting source failing fun read _ => read ≠ [] :=
  advance h (by simp)

theorem passIf {kind : Kind} (h : kind ≠ .endOfText) :
    (Parser.skipIf kind).Meets run setting source failing fun read found =>
      found = true → read ≠ [] :=
  skipIf h (by simp) (by simp)

theorem pass {kind : Kind} (h : kind ≠ .endOfText) :
    (Parser.expect kind).Meets run setting source (¬run.clean) fun read _ => read ≠ [] :=
  expect h (by simp)

theorem passOrReport {kind : Kind} (h : kind ≠ .endOfText) :
    (Parser.expectOrReport kind).Meets run setting source failing fun _ _ => True :=
  expectOrReport h (fun _ _ => trivial) fun _ => trivial

end Meets

/-! ## Skipping -/

theorem skipGroup_meets : skipGroup.Meets run setting source failing fun read _ =>
    source.peek.kind ≠ .endOfText → read ≠ [] := by
  refine .loop (fun _ _ => True) trivial fun {read depth rest} hfollows _ =>
    Observes.peekKind.meets ?_
  split
  next hend =>
    refine .pure fun hkind hnil => ?_
    obtain rfl : read = [] := by simpa using hnil
    exact hkind (hfollows.peek_of_nil ▸ hend)
  next hend =>
    refine (Meets.skip_some hend).bind fun {more _ _} _ hmore => ?_
    have hgo : more ++ [] ≠ [] := by simpa using hmore
    have hdone : source.peek.kind ≠ .endOfText → read ++ (more ++ []) ≠ [] := by simp [hmore]
    repeat' split
    all_goals first | exact .pure hdone | exact .pure ⟨hgo, trivial⟩

theorem skipGroupsUntil_meets {stop : Token → Bool} :
    (skipGroupsUntil stop).Meets run setting source failing fun _ _ => True := by
  refine .loop (fun _ _ => True) trivial fun {_ _ rest} _ _ => Observes.peek.meets ?_
  split
  · exact .pure trivial
  next hgo =>
    have hkind : rest.peek.kind ≠ .endOfText := by simp_all
    exact (skipGroup_meets).bind fun _ hread => .pure ⟨by simpa using hread hkind, trivial⟩

theorem skipInitializer_meets : skipInitializer.Meets run setting source failing
    fun _ _ => True := by
  refine .loop (fun _ _ => True) trivial fun {_ _ rest} _ _ => Observes.peek.meets ?_
  split
  · exact .pure trivial
  next hgo =>
    have hkind : rest.peek.kind ≠ .endOfText := by simp_all
    repeat' split
    · exact (skipGroup_meets).bind fun _ hread => .pure ⟨by simpa using hread hkind, trivial⟩
    · exact .pure trivial
    · exact (Meets.skip_some hkind).bind fun _ hread => .pure ⟨by simpa using hread, trivial⟩

theorem skipBlockRest_meets : skipBlockRest.Meets run setting source failing
    fun _ _ => True := by
  refine .loop (fun _ _ => True) trivial fun _ _ => ?_
  refine Meets.bind (M := fun more token => token.kind ≠ .endOfText → more ≠ [])
    (.advance_any (by simp) fun hend h => absurd hend h) fun _ hread => ?_
  split
  next hkind => exact .pure ⟨by simpa using hread (by simp [hkind]), trivial⟩
  next hkind =>
    split
    · exact .pure trivial
    · exact .pure ⟨by simpa using hread (by simp [hkind]), trivial⟩
  · exact .pure trivial
  next hother => exact .pure ⟨by simpa using hread hother, trivial⟩

theorem skipToStatement_meets : skipToStatement.Meets run setting source failing
    fun _ _ => True := by
  refine .loop (fun _ _ => True) trivial fun {_ _ rest} _ _ => Observes.peek.meets ?_
  split
  · exact .pure trivial
  · exact .pure trivial
  · exact Meets.skip.bind fun _ _ => .pure trivial
  next hkind =>
    exact (skipGroup_meets).bind fun _ hread =>
      .pure ⟨by simpa using hread (by simp [hkind]), trivial⟩
  next hend _ _ _ =>
    split
    · exact .pure trivial
    · exact (Meets.skip_some hend).bind fun _ hread => .pure ⟨by simpa using hread, trivial⟩

theorem recoverStatement_meets {progress : Bool} :
    (recoverStatement progress).Meets run setting source failing fun read _ =>
      progress = false → source.peek.kind ≠ .endOfText → read ≠ [] := by
  refine Observes.peekKind.meets ?_
  split
  next hgo =>
    refine skipToStatement_meets.mono fun _ hread hkind => ?_
    simp [hread, hkind] at hgo
  · refine Meets.bind (M := fun read _ => source.peek.kind ≠ .endOfText → read ≠ [])
      (.advance_any (by simp) fun hend h => absurd hend h) fun {read _ _} _ hread => ?_
    have hfinal (more : List Token) (_ : progress = false)
        (hkind : source.peek.kind ≠ .endOfText) : read ++ more ≠ [] := by simp [hread hkind]
    split
    · exact .pure (hfinal _)
    · exact skipBlockRest_meets.bind fun _ _ => skipToStatement_meets.mono fun _ => hfinal _
    · exact skipToStatement_meets.mono fun _ => hfinal _

theorem skipToMember_meets : skipToMember.Meets run setting source failing
    fun _ _ => True := by
  refine .loop (fun _ _ => True) trivial fun {_ _ rest} _ _ => Observes.peek.meets ?_
  split
  · exact .pure trivial
  · exact .pure trivial
  · exact Meets.skip.bind fun _ _ => .pure trivial
  · exact Meets.skip.bind fun _ _ => .pure trivial
  next hend _ _ _ =>
    repeat' split
    · exact .pure trivial
    · exact (skipGroup_meets).bind fun _ hread => .pure ⟨by simpa using hread hend, trivial⟩
    · exact (Meets.skip_some hend).bind fun _ hread => .pure ⟨by simpa using hread, trivial⟩

theorem recoverMember_meets {progress : Bool} :
    (recoverMember progress).Meets run setting source failing fun read _ =>
      progress = false → source.peek.kind ≠ .endOfText → read ≠ [] := by
  refine Observes.peekKind.meets ?_
  split
  next hgo =>
    refine skipToMember_meets.mono fun _ hread hkind => ?_
    simp [hread, hkind] at hgo
  · refine Meets.bind (M := fun read _ => source.peek.kind ≠ .endOfText → read ≠ [])
      (.advance_any (by simp) fun hend h => absurd hend h) fun {read _ _} _ hread => ?_
    have hfinal (more : List Token) (_ : progress = false)
        (hkind : source.peek.kind ≠ .endOfText) : read ++ more ≠ [] := by simp [hread hkind]
    split
    · exact .pure (hfinal _)
    · exact .pure (hfinal _)
    · exact skipToMember_meets.mono fun _ => hfinal _

theorem endStatement_meets : endStatement.Meets run setting source failing
    fun _ _ => True := by
  refine Observes.peek.meets ?_
  repeat' split
  · exact Meets.skip.bind fun _ _ => .pure trivial
  · exact .pure trivial
  · exact .expectOrReport (by decide) (fun _ _ => trivial) fun _ => trivial

/-- A body that is skipped is reported. -/
theorem skipBody_meets : skipBody.Meets run setting source failing fun read _ =>
    run.clean → read = [] := by
  refine Observes.peekKind.meets ?_
  split
  · refine Meets.bind (M := fun _ _ => ¬run.clean) (.reportHere id) fun _ hnoisy => ?_
    exact skipGroup_meets.mono fun _ hclean => absurd hclean hnoisy
  · exact .pure fun _ => rfl

/-! ## Nodes and lists of nodes -/

namespace Meets

variable {α β : Type} {free : Kind → Prop}

/-- A node's span is the extent of what is read. -/
theorem node {inner : Parser α} {make : α → Span → β} {outline : β → Outline}
    (h : inner.Meets run setting source failing fun read result =>
      Over run read (outline (make result (extent run.file read)))) :
    (Parser.spanned make inner).Meets run setting source failing fun read result =>
      Over run read (outline result) :=
  spanned (h.mono fun hover => ⟨hover.ne_nil, hover⟩)

/-- What there is no result for left no part, and was reported. -/
theorem optional_laid {inner : Parser α} {forest : α → List Outline}
    {F : Option α → List Outline} (hnone : F none = [])
    (hsome : ∀ result, F (some result) = forest result)
    (h : inner.Meets run setting source (¬run.clean) fun read result =>
      Laid run free read (forest result)) :
    (Parser.optional inner).Meets run setting source failing fun read result? =>
      Laid run free read (F result?) := by
  refine optional h (fun {_ result} hlaid => ?_) fun hnoisy => ?_
  · rwa [hsome result]
  · rw [hnone]
    exact .of_noisy hnoisy

/-- After the elements of a body its closing brace is read, or reported as missing. -/
theorem close {separators : List Mark} {inside : List Token} {elements : List Outline}
    (h : Laid run (Gap.body separators) inside elements) :
    (Parser.expectOrReport (.mark .closeBrace)).Meets run setting source failing fun read _ =>
      Closed run separators (inside ++ read) elements := by
  refine expectOrReport (by simp) (fun _ hkind => .closed h hkind) fun {read} hnoisy => ?_
  exact .broken hnoisy (by simpa using h.loosen.append (Laid.passed read))

theorem elementOrStop {inner : Parser α} {outline : α → Outline}
    (h : inner.Meets run setting source (¬run.clean) fun read result =>
      Laid run free read [outline result]) :
    (Parser.elementOrStop inner).Meets run setting source failing fun read taken =>
      Laid run free read (taken.result?.toList.map outline) :=
  (optional_laid (F := fun result? => result?.toList.map outline) rfl (fun _ => rfl)
    h).bind fun _ hlaid => .pure (by simpa using hlaid)

/-- The elements of a list lie one after another, with what is free and commas in between. -/
theorem commaSeparated {close : Kind} {element : Parser (Turn α)} {outline : α → Outline}
    (hcomma : free (.mark .comma))
    (helement : ∀ {read rest}, setting.Follows source read rest → rest.peek.kind ≠ .endOfText →
      element.Meets run setting rest failing fun more taken =>
        Laid run free more (taken.result?.toList.map outline)) :
    (Parser.commaSeparated close element).Meets run setting source failing fun read found =>
      Laid run free read (found.map outline) := by
  refine collect .nothing fun {read collected rest} hfollows hread => Observes.peekKind.meets ?_
  split
  · exact .pure ⟨by simp, by simpa using hread⟩
  next hgo =>
    have hkind : rest.peek.kind ≠ .endOfText := by simp_all
    refine (helement hfollows hkind).bind fun {more taken _} _ hmore => ?_
    split
    · refine (skipIf (Q := fun last again => Laid run free last [] ∧
        (again = true → last ≠ [])) (by decide) ?_ ?_).bind fun {last again _} _ hlast => .pure ?_
      · exact fun token hkind => ⟨.token (hkind ▸ hcomma), by simp⟩
      · exact fun _ => ⟨.nothing, by simp⟩
      · refine ⟨fun hagain => by simp [hlast.2 hagain], ?_⟩
        simpa using hread.append (hmore.append hlast.1)
    next hstop => exact .pure ⟨by simp [hstop], by simpa using hread.append hmore⟩

theorem afterEach {mark : Mark} {element : Parser α} {outline : α → Outline}
    (helement : ∀ {rest}, element.Meets run setting rest (¬run.clean) fun more result =>
      Laid run Gap.any more [outline result]) :
    (Parser.afterEach mark element).Meets run setting source failing fun read found =>
      Laid run Gap.any read (found.map outline) := by
  refine collect .nothing fun {read collected rest} _ hread => ?_
  refine (passIf (by simp)).bind fun {more again _} _ hmore => ?_
  cases again with
  | false => exact .pure ⟨by simp, by simpa using hread.append (.passed more)⟩
  | true =>
      refine (elementOrStop helement).mono fun hlast => ⟨?_, ?_⟩
      · simp [hmore rfl]
      · simpa using hread.append ((Laid.passed more).append hlast)

end Meets

/-! ## Names and literals -/

theorem readIdent_meets (hkind : source.peek.kind ≠ .endOfText) :
    readIdent.Meets run setting source failing fun read ident =>
      Over run read ident.outline :=
  (Meets.advance (Q := fun read token => read = [token]) hkind rfl).bind fun _ hread =>
    .pure (by simpa [hread, Ident.outline] using Over.token _)

theorem ident_meets : ident.Meets run setting source (¬run.clean) fun read ident =>
    Over run read ident.outline := by
  refine Observes.peekKind.meets ?_
  split
  next hname => exact readIdent_meets (Kind.ne_endOfText hname rfl)
  next => exact .refuse

theorem anyIdent_meets : anyIdent.Meets run setting source (¬run.clean) fun read ident =>
    Over run read ident.outline := by
  refine Observes.peekKind.meets ?_
  split
  next hname => exact readIdent_meets (Kind.ne_endOfText hname rfl)
  next => exact .refuse

theorem exportName_meets : exportName.Meets run setting source (¬run.clean) fun read ident =>
    Over run read ident.outline := by
  refine Observes.peekKind.meets ?_
  split
  next hkind => exact readIdent_meets (by simp [hkind])
  next => exact anyIdent_meets

theorem stringLit_meets : stringLit.Meets run setting source (¬run.clean) fun read literal =>
    Over run read literal.outline :=
  (Meets.expect (Q := fun read token => read = [token]) (by decide) fun _ _ => rfl).bind
    fun _ hread => .pure (by simpa [hread, StringLit.outline] using Over.token _)

theorem moreSegments_meets : moreSegments.Meets run setting source failing
    fun read segments => Laid run Gap.any read (segments.map Ident.outline) := by
  refine .collect .nothing fun {read segments rest} _ hread => ?_
  refine Observes.peekKind.meets ((Observes.kindAhead 1).meets ?_)
  split
  next hgo =>
    simp only [Bool.and_eq_true, decide_eq_true_eq] at hgo
    refine (Meets.advance (Q := fun more _ => ∃ token, more = [token]) (by simp [hgo.1])
      ⟨_, rfl⟩).bind fun {more _ middle} hfollows hmore => ?_
    obtain ⟨token, rfl⟩ := hmore
    have hkind : middle.peek.kind ≠ .endOfText := by
      rw [hfollows.peek_of_one]
      exact Kind.ne_endOfText hgo.2 rfl
    refine (readIdent_meets hkind).bind fun _ hident => .pure ⟨by simp, ?_⟩
    simpa using hread.append ((Laid.passed [token]).append hident.laid)
  next => exact .pure ⟨by simp, by simpa using hread⟩

theorem entityName_meets : entityName.Meets run setting source (¬run.clean) fun read name =>
    Over run read name.outline := by
  refine .node (Observes.peekKind.meets ?_)
  have hfirst : ∀ first : Parser Ident, (first.Meets run setting source (¬run.clean)
      fun read ident => Over run read ident.outline) →
      (first >>= fun first => moreSegments >>= fun rest => Pure.pure (first, rest)).Meets run
        setting source (¬run.clean) fun read name =>
          Over run read (EntityName.mk name.1 name.2 (extent run.file read)).outline := by
    intro first hfirst
    refine hfirst.bind fun _ hident => moreSegments_meets.bind fun _ hrest => .pure ?_
    simpa [EntityName.outline, EntityName.segments] using
      (hident.laid.append hrest).joined (by simp [hident.ne_nil])
  split
  next hthis => exact hfirst _ (readIdent_meets (by simp [hthis]))
  next => exact hfirst _ ident_meets

theorem qualifier_meets : qualifier.Meets run setting source (¬run.clean) fun read name =>
    Over run read name.outline := by
  refine .node (anyIdent_meets.bind fun _ hident => ?_)
  refine moreSegments_meets.bind fun _ hrest => .pure ?_
  simpa [EntityName.outline, EntityName.segments] using
    (hident.laid.append hrest).joined (by simp [hident.ne_nil])

/-- A literal has no span of its own; the one that comes with it is that of a token. -/
theorem literal_meets : literal.Meets run setting source True fun _ found =>
    Marks setting.file setting.text found.2 := by
  refine (Meets.passIf (by simp)).bind fun _ _ => ?_
  refine Meets.bind (M := fun _ token => Marks setting.file setting.text token.span) ?_
    fun _ hmarks => ?_
  · refine .of_admits fun hadmits => .advance_any (fun _ => ?_) fun _ => ?_
    all_goals exact hadmits.marks_token (TokenStream.peek_mem_tokens _)
  · dsimp only
    split
    · exact .pure hmarks
    · exact .fail trivial

theorem keyExpr_meets : keyExpr.Meets run setting source (¬run.clean) fun read expr =>
    Laid run Gap.any read expr.parts := by
  refine Observes.peekKind.meets ?_
  split
  · exact Meets.skip.bind fun _ _ => .pure (.passed _)
  · exact Meets.skip.bind fun _ _ => .pure (.passed _)
  · split
    next hname =>
      refine .spanned ((readIdent_meets (Kind.ne_endOfText hname rfl)).bind fun _ hident => ?_)
      refine moreSegments_meets.bind fun _ hrest => .pure ⟨by simp [hident.ne_nil], ?_⟩
      have hname := (hident.laid.append hrest).joined (by simp [hident.ne_nil])
      simpa [KeyExpr.parts, EntityName.outline, EntityName.segments] using hname.laid
    next => exact .refuse

theorem propertyName_meets : propertyName.Meets run setting source (¬run.clean) fun read name =>
    Over run read name.outline := by
  refine Observes.peek.meets ?_
  have htoken : ∀ {name : PropertyName}, source.peek.kind ≠ .endOfText →
      name.outline = .plain source.peek.span [] →
      (Parser.advance >>= fun _ => Pure.pure name).Meets run setting source (¬run.clean)
        fun read name => Over run read name.outline := fun hkind hname =>
    (Meets.advance (Q := fun read _ => read = [source.peek]) hkind rfl).bind fun _ hread =>
      .pure (by simpa [hread, hname] using Over.token _)
  split
  next hkind => exact htoken (by simp [hkind]) rfl
  next hkind => exact htoken (by simp [hkind]) rfl
  next hkind => exact htoken (by simp [hkind]) rfl
  next hkind =>
    refine .node ((Meets.skip_some (by simp [hkind])).bind fun {opening _ _} _ hopening => ?_)
    refine keyExpr_meets.bind fun _ hexpr => ?_
    refine (Meets.pass (by simp)).bind fun {closing _ _} _ _ => .pure ?_
    have hparts := (Laid.passed opening).append (hexpr.append (Laid.passed closing))
    simpa [PropertyName.outline] using hparts.joined (by simp [hopening])
  next =>
    split
    next hname =>
      refine (readIdent_meets (Kind.ne_endOfText hname rfl)).bind fun _ hident => .pure ?_
      simpa [PropertyName.outline] using hident
    next => exact .refuse

end Parser

end DeclFile
