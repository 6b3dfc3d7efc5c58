import DeclFile.Parser.Statement
import DeclFile.Proofs.Reading.Declaration

/-! # Reading statements, and the grammar

What the parsers of exports and statements read. All goals of the grammar do what they
should at every depth, by an induction on the levels of nesting that are left.
-/

namespace DeclFile

namespace Parser

variable {run : Run} {failing : Prop} {setting : Setting} {source : TokenStream}

/-! ## Exports -/

theorem exportSpecifier_meets {typeOnly : Bool} {before : List Token} :
    (exportSpecifier typeOnly).Meets run setting source (¬run.clean) fun read make =>
      Over run (before ++ read) (make (extent run.file (before ++ read))).outline := by
  refine exportName_meets.bind fun _ hname => ?_
  refine Meets.ifNext (fun read exported => Laid run Gap.any read
    (exported.toList.map Ident.outline)) (by simp) (fun {word _} _ _ => .map ?_) .nothing
    fun _ hexported => .pure ?_
  · refine exportName_meets.mono fun hexported => ?_
    simpa using (Laid.passed [word]).append (Over.laid hexported)
  · have hparts := (Laid.passed before).append (hname.laid.append hexported)
    simpa [ExportSpecifier.outline] using hparts.joined (by simp [hname.ne_nil])

theorem namedExports_meets {typeOnly : Bool} :
    (namedExports typeOnly).Meets run setting source (¬run.clean) fun read exported =>
      Laid run Gap.any read exported.parts := by
  refine Meets.bind (specifiers_meets exportSpecifier_meets) fun _ hfound => ?_
  refine Meets.ifNext (fun read specifier => Laid run Gap.any read
    (specifier.toList.map StringLit.outline)) (by simp) (fun {word _} _ _ => .map ?_) .nothing
    fun _ hspecifier => ?_
  · refine moduleSpecifier_meets.mono fun hspecifier => ?_
    simpa using (Laid.passed [word]).append hspecifier.1
  refine endStatement_meets.bind fun {last _ _} _ _ => .pure ?_
  simpa [Export.parts] using hfound.2.append (hspecifier.append (Laid.passed last))

theorem exportAll_meets {typeOnly : Bool} :
    (exportAll typeOnly).Meets run setting source (¬run.clean) fun read exported =>
      Laid run Gap.any read exported.parts := by
  refine Meets.skip.bind fun {star _ _} _ _ => ?_
  refine Meets.ifNext (fun read exported => Laid run Gap.any read
    (exported.toList.map Ident.outline)) (by simp) (fun {word _} _ _ => .map ?_) .nothing
    fun _ hexported => ?_
  · refine exportName_meets.mono fun hexported => ?_
    simpa using (Laid.passed [word]).append (Over.laid hexported)
  refine (Meets.pass (by simp)).bind fun {word _ _} _ _ => ?_
  refine moduleSpecifier_meets.bind fun _ hspecifier => ?_
  refine endStatement_meets.bind fun {last _ _} _ _ => .pure ?_
  have hparts := (Laid.passed star).append (hexported.append ((Laid.passed word).append
    (hspecifier.1.append (Laid.passed last))))
  simpa [Export.parts] using hparts

section

variable [setting.Grounded]

theorem defaultExport_meets : defaultExport.Meets run setting source (¬run.clean)
    fun read exported => Laid run Gap.any read exported.parts := by
  refine Observes.peekKind.meets ((Observes.kindAhead 1).meets ?_)
  split
  · refine declaration_meets.bind fun _ hinner => .pure ?_
    simpa [Export.parts] using hinner.laid
  split
  · refine entityName_meets.bind fun _ hname => ?_
    refine endStatement_meets.bind fun {last _ _} _ _ => .pure ?_
    simpa [Export.parts] using hname.laid.append (Laid.passed last)
  · refine Meets.bind (M := fun _ _ => ¬run.clean) (.reportHere id) fun _ hnoisy => ?_
    refine skipInitializer_meets.bind fun _ _ => endStatement_meets.bind fun _ _ => ?_
    exact .fail hnoisy

theorem exported_meets : exported.Meets run setting source (¬run.clean)
    fun read exported => Laid run Gap.any read exported.parts := by
  refine Observes.peekKind.meets ((Observes.kindAhead 1).meets ?_)
  have hinner {inner : Parser Statement} (h : inner.Meets run setting source (¬run.clean)
      fun read statement => Over run read statement.outline) :
      (Export.declaration <$> inner).Meets run setting source (¬run.clean) fun read exported =>
        Laid run Gap.any read exported.parts :=
    .map (h.mono fun hover => by simpa [Export.parts] using Over.laid hover)
  split
  · refine Meets.skip.bind fun {mark _ _} _ _ => entityName_meets.bind fun _ hname => ?_
    refine endStatement_meets.bind fun {last _ _} _ _ => .pure ?_
    simpa [Export.parts] using
      (Laid.passed mark).append (hname.laid.append (Laid.passed last))
  · refine Meets.skip.bind fun {word _ _} _ _ => ?_
    refine (Meets.pass (by simp)).bind fun {more _ _} _ _ => ident_meets.bind fun _ hname => ?_
    refine endStatement_meets.bind fun {last _ _} _ _ => .pure ?_
    have hparts := (Laid.passed (word ++ more)).append (hname.laid.append (Laid.passed last))
    simpa [Export.parts] using hparts
  · refine Meets.skip.bind fun {word _ _} _ _ => defaultExport_meets.mono fun hparts => ?_
    simpa using (Laid.passed word).append hparts
  · exact exportAll_meets
  · exact namedExports_meets
  · split
    · refine Meets.skip.bind fun {word _ _} _ _ => namedExports_meets.mono fun hparts => ?_
      simpa using (Laid.passed word).append hparts
    split
    · refine Meets.skip.bind fun {word _ _} _ _ => exportAll_meets.mono fun hparts => ?_
      simpa using (Laid.passed word).append hparts
    · exact hinner declaration_meets
  next hkind => exact hinner (importStatement_meets (by simp [hkind]))
  · exact hinner ambientDeclaration_meets
  · exact hinner declaration_meets

theorem exportStatement_meets (hkind : source.peek.kind ≠ .endOfText) :
    exportStatement.Meets run setting source (¬run.clean) fun read statement =>
      Over run read statement.outline := by
  refine .node ((Meets.skip_some hkind).bind fun {word _ _} _ hword => ?_)
  refine exported_meets.mono fun hparts => ?_
  simpa [Statement.outline, StatementKind.outline] using
    ((Laid.passed word).append hparts).joined (by simp [hword])

/-! ## Statements -/

theorem statement_meets {ambient : Bool} :
    (statement ambient).Meets run setting source (¬run.clean) fun read statement =>
      Over run read statement.outline := by
  refine Observes.peekKind.meets ((Observes.kindAhead 1).meets ?_)
  split
  · exact ambientDeclaration_meets
  next hkind => exact exportStatement_meets (by simp [hkind])
  next hkind =>
    split
    · exact declaration_meets
    · exact importStatement_meets (by simp [hkind])
  · exact declaration_meets

/-- Statements lie one after another. A broken one was reported before it is skipped. They
go on up to a closing token or the end of the text. -/
theorem statements_meets {ambient : Bool} {close : Kind} :
    (statements ambient close).Meets run setting source failing fun read found =>
      Laid run (Gap.body [.semicolon]) read (found.map Statement.outline) ∧
        ∀ rest, setting.Follows source read rest →
          rest.peek.kind = close ∨ rest.peek.kind = .endOfText := by
  refine .collectUntil (fun read found =>
      Laid run (Gap.body [.semicolon]) read (found.map Statement.outline)) .nothing
    fun {read found rest} hfollows hread => Observes.peekKind.meets ?_
  split
  next hstop =>
    refine .pure ⟨by simpa using hread, fun rest' hfollows' => ?_⟩
    rw [List.append_nil] at hfollows'
    rw [hfollows.peek_eq hfollows']
    simpa using hstop
  next hgo =>
    have hkind : rest.peek.kind ≠ .endOfText := by simp_all
    split
    next hsemicolon =>
      refine Meets.bind (M := fun more _ => more ≠ [] ∧
        Laid run (Gap.body [.semicolon]) more [])
        (.advance hkind ⟨by simp, .token (by simp [hsemicolon, Gap.body])⟩)
        fun _ hmore => .pure ?_
      exact ⟨by simp [hmore.1], by simpa using hread.append hmore.2⟩
    · refine Meets.settle_bind statement_meets (fun _ hmore => .pure ⟨by simp [hmore.ne_nil], ?_⟩)
        fun {more _} hfollows hnoisy => ?_
      · simpa using hread.append hmore.laid
      · refine recoverStatement_meets.bind fun {last _ _} _ hlast => .pure ⟨?_, ?_⟩
        · intro hnil
          obtain ⟨rfl, hnil⟩ := List.append_eq_nil_iff.mp hnil
          rw [hfollows.peek_of_nil] at hlast
          exact hlast rfl hkind (by simpa using hnil)
        · have hlost : Laid run (Gap.body [.semicolon]) (more ++ last) [] :=
            .of_noisy hnoisy
          simpa using hread.append hlost

theorem blockRest_meets : blockRest.Meets run setting source failing fun read found =>
    Closed run [.semicolon] read (found.map Statement.outline) :=
  statements_meets.bind fun _ hinside => (Meets.close hinside.1).bind fun _ hclosed =>
    .pure (by simpa using hclosed)

/-! ## The grammar -/

theorem rule_meets (goal : Goal) : (rule goal).Meets run setting source (¬run.clean)
    (goal.Post run) := by
  cases goal with
  | type => exact conditionalType_meets
  | operand inBound => exact operatorType_meets
  | constraint inBound => exact inferConstraint_meets
  | members => exact members_meets
  | classMembers => exact classMembers_meets
  | block => exact blockRest_meets

end

/-- Where nesting is too deep that is reported, and a body without elements was read. -/
theorem refusal_meets (limit : Nat) (goal : Goal) :
    (refusal limit goal).Meets run setting source (¬run.clean) (goal.Post run) := by
  cases goal with
  | type | operand | constraint =>
      unfold refusal refusal.tooDeep
      exact .refuse
  | members | classMembers =>
      refine Meets.bind (M := fun _ _ => ¬run.clean) (.reportHere id) fun _ hnoisy => ?_
      exact skipGroupsUntil_meets.bind fun _ _ => .pure (.of_noisy hnoisy)
  | block =>
      refine Meets.bind (M := fun _ _ => ¬run.clean) (.reportHere id) fun _ hnoisy => ?_
      exact skipBlockRest_meets.bind fun _ _ => .pure (.broken hnoisy (.of_noisy hnoisy))

end Parser

namespace Setting

/-- The same text at another place. -/
def moved (setting : Setting) (place : Place) : Setting := { setting with toPlace := place }

variable {setting : Setting} {place : Place} {source : TokenStream}

theorem Admits.moved (h : setting.Admits source) (hentry : place.entry = source.pending.length) :
    (setting.moved place).Admits source :=
  ⟨h.ends, hentry.ge, h.suffix⟩

end Setting

/-- What is read at one place can be read at another in the same file. -/
theorem Outcome.Reads.of_moved {α : Type} {setting : Setting} {place : Place}
    {source : TokenStream} {outcome : Outcome TokenStream α} {read : List Token}
    (h : outcome.Reads (setting.moved place) source read) (hadmits : setting.Admits source)
    (hfile : place.file = setting.file) : outcome.Reads setting source read :=
  ⟨⟨hadmits, h.follows.pending, h.follows.last⟩, h.lastRead, hfile ▸ h.marks⟩

/-- All goals of the grammar do what they should wherever they are reached, by induction on
the levels that are left there. -/
theorem Setting.grounded {limit : Nat} (setting : Setting)
    (hgrammar : setting.grammar = grammar limit) : setting.Grounded := by
  induction hlevels : setting.limit - setting.depth generalizing setting with
  | zero =>
      have hdepth : setting.limit ≤ setting.depth := Nat.sub_eq_zero_iff_le.mp hlevels
      refine ⟨fun {run} goal {source} hstarted hfile hadmits => ?_⟩
      have hrun : (Parser.nested goal).runWith setting.reach source = _ :=
        Place.reach_of_le hdepth source.pending.length
      rw [hrun]
      intro hclean
      have hrefusal : (setting.grammar.refusal goal).Meets run
          (setting.moved (setting.refusing source.pending.length)) source (¬run.clean)
          (goal.Post run) := by
        rw [hgrammar]
        exact Parser.refusal_meets limit goal
      obtain ⟨⟨peak, hevaluates⟩, read, hreads, hyields⟩ :=
        hrefusal hfile (hadmits.moved rfl) hclean
      exact ⟨⟨peak, .refused hstarted hdepth hevaluates⟩, read, hreads.of_moved hadmits rfl,
        hyields⟩
  | succ levels ih =>
      have hdepth : setting.depth < setting.limit := by omega
      refine ⟨fun {run} goal {source} hstarted hfile hadmits => ?_⟩
      have hrun : (Parser.nested goal).runWith setting.reach source = _ :=
        Place.reach_of_lt hdepth source.pending.length
      rw [hrun]
      intro hclean
      let deeper := setting.moved (setting.inside source.pending.length)
      have hgrounded : deeper.Grounded := by
        refine ih deeper hgrammar ?_
        simp only [deeper, moved, Place.inside]
        omega
      have hrule : (setting.grammar.rule goal).Meets run deeper source (¬run.clean)
          (goal.Post run) := by
        rw [hgrammar]
        exact Parser.rule_meets goal
      obtain ⟨⟨peak, hevaluates⟩, read, hreads, hyields⟩ := hrule hfile (hadmits.moved rfl) hclean
      exact ⟨⟨peak, .nested hstarted hdepth hevaluates⟩, read, hreads.of_moved hadmits rfl, hyields⟩

end DeclFile
