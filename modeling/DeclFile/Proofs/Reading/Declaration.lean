import DeclFile.Parser.Declaration
import DeclFile.Parser.Import
import DeclFile.Proofs.Reading.Member

/-! # Reading declarations and imports

What the parsers of declarations and imports read. A declaration that has a body in braces
is a node with a body, and every other one is a plain node.
-/

namespace DeclFile.Parser

variable {run : Run} {failing : Prop} {setting : Setting} {source : TokenStream}

/-! ## Imports -/

theorem specifierTypeOnly_observes (source : TokenStream) :
    ∃ typeOnly, Observes specifierTypeOnly source typeOnly := by
  refine Observes.peekKind.exists_bind ((Observes.kindAhead 1).exists_bind
    ((Observes.kindAhead 2).exists_bind ?_))
  repeat' split
  all_goals exact ⟨_, .pure _⟩

theorem importTypeOnly_observes (source : TokenStream) :
    ∃ typeOnly, Observes importTypeOnly source typeOnly :=
  ⟨_, Observes.peekKind.bind ((Observes.kindAhead 1).bind (.pure _))⟩

/-- The specifier stands at the end of its node, and what marks it is passed over. -/
theorem specifiers_meets {α : Type} {specifier : Bool → Parser (Span → α)}
    {outline : α → Outline}
    (hspecifier : ∀ {typeOnly before rest}, (specifier typeOnly).Meets run setting rest (¬run.clean)
      fun read make =>
        Over run (before ++ read) (outline (make (extent run.file (before ++ read))))) :
    (specifiers specifier).Meets run setting source (¬run.clean) fun read found =>
      read ≠ [] ∧ Laid run Gap.any read (found.map outline) := by
  refine (Meets.pass (by simp)).bind fun {opening _ _} _ hopening => ?_
  refine Meets.bind (M := fun read found => Laid run Gap.any read (found.map outline))
    (.commaSeparated trivial fun {_ rest} _ _ => ?_) fun _ hfound => ?_
  · refine Meets.bind (M := fun read found => Over run read (outline found)) (.node ?_)
      fun _ hfound => .pure (by simpa using hfound.laid)
    obtain ⟨typeOnly, htypeOnly⟩ := specifierTypeOnly_observes rest
    refine htypeOnly.meets ?_
    exact Meets.when (fun _ => True) (fun _ => Meets.skip) (fun _ => trivial)
      fun _ _ => hspecifier
  refine (Meets.pass (by simp)).bind fun {closing _ _} _ _ => .pure ⟨by simp [hopening], ?_⟩
  simpa using (Laid.passed opening).append (hfound.append (Laid.passed closing))

theorem skipImportAttributes_meets :
    skipImportAttributes.Meets run setting source failing fun _ _ => True := by
  refine Observes.peek.meets ((Observes.kindAhead 1).meets ?_)
  split
  · exact Meets.skip.bind fun _ _ => skipGroup_meets.trivially
  · exact .pure trivial

theorem moduleSpecifier_meets : moduleSpecifier.Meets run setting source (¬run.clean)
    fun read specifier => Laid run Gap.any read [specifier.outline] ∧ read ≠ [] := by
  refine stringLit_meets.bind fun _ hspecifier => ?_
  refine skipImportAttributes_meets.bind fun {attributes _ _} _ _ => .pure ⟨?_, ?_⟩
  · simpa using hspecifier.laid.append (Laid.passed attributes)
  · simp [hspecifier.ne_nil]

/-- A name without an alias is its own binding. -/
theorem importSpecifier_meets {typeOnly : Bool} {before : List Token} :
    (importSpecifier typeOnly).Meets run setting source (¬run.clean) fun read make =>
      Over run (before ++ read) (make (extent run.file (before ++ read))).outline := by
  refine exportName_meets.bind fun {_ imported _} _ himported => ?_
  refine Meets.ifNext (fun read binding => Laid run Gap.any read
    (if binding = imported then [] else [binding.outline]))
    (by simp) (fun {word _} _ _ => ?_) (by simpa using Laid.nothing) fun _ hbinding => .pure ?_
  · refine ident_meets.mono fun hbinding => ?_
    have hparts := (Laid.passed [word]).append (Over.laid hbinding)
    split
    · exact Laid.passed _
    · simpa using hparts
  · have hparts := (Laid.passed before).append (himported.laid.append hbinding)
    simpa [ImportSpecifier.outline] using hparts.joined (by simp [himported.ne_nil])

theorem importBindings_meets : importBindings.Meets run setting source (¬run.clean)
    fun read bindings => Laid run Gap.any read bindings.parts := by
  refine (Meets.passIf (by simp)).bind fun {star _ _} _ _ => ?_
  split
  · refine (Meets.pass (by simp)).bind fun {word _ _} _ _ => ?_
    refine ident_meets.bind fun _ hname => .pure ?_
    simpa [ImportBindings.parts] using (Laid.passed (star ++ word)).append hname.laid
  · refine Meets.bind (specifiers_meets importSpecifier_meets) fun _ hfound => .pure ?_
    simpa [ImportBindings.parts] using (Laid.passed star).append hfound.2

theorem importTarget_meets : importTarget.Meets run setting source (¬run.clean)
    fun read target => Laid run Gap.any read [target.outline] := by
  refine Observes.peek.meets ((Observes.kindAhead 1).meets ?_)
  split
  · refine Meets.skip.bind fun {word _ _} _ _ => Meets.skip.bind fun {opening _ _} _ _ => ?_
    refine stringLit_meets.bind fun _ hspecifier => ?_
    refine (Meets.pass (by simp)).bind fun {closing _ _} _ _ => .pure ?_
    have hparts := (Laid.passed (word ++ opening)).append
      (hspecifier.laid.append (Laid.passed closing))
    simpa [ImportTarget.outline] using hparts
  · exact entityName_meets.bind fun _ hname => .pure (by
      simpa [ImportTarget.outline] using hname.laid)

theorem importClause_meets : importClause.Meets run setting source (¬run.clean)
    fun read kind => Laid run Gap.any read kind.parts := by
  refine Observes.peekKind.meets ?_
  refine Meets.either (fun read default => Laid run Gap.any read
      (default.toList.map Ident.outline)) (fun _ => .map ?_) (fun _ => .pure .nothing)
    fun {_ default _} _ hdefault => ?_
  · exact ident_meets.mono fun hname => by simpa using hname.laid
  refine Meets.either (fun _ _ => True) (fun _ => .pure trivial)
    (fun _ => (Meets.passIf (by simp)).trivially) fun {comma _ _} _ _ => ?_
  refine Meets.either (fun read bindings => Laid run Gap.any read
      (bindings.toList.flatMap ImportBindings.parts)) (fun _ => .map ?_)
    (fun _ => .pure .nothing) fun _ hbindings => ?_
  · exact importBindings_meets.mono fun hbindings => by simpa using hbindings
  refine (Meets.pass (by simp)).bind fun {word _ _} _ _ => ?_
  refine moduleSpecifier_meets.bind fun _ hspecifier => .pure ?_
  have hparts := hdefault.append ((Laid.passed comma).append
    (hbindings.append ((Laid.passed word).append hspecifier.1)))
  simpa [ImportKind.parts] using hparts

theorem importKind_meets : importKind.Meets run setting source (¬run.clean)
    fun read kind => Laid run Gap.any read kind.parts := by
  refine Observes.peekKind.meets ((Observes.kindAhead 1).meets ?_)
  split
  · refine moduleSpecifier_meets.bind fun _ hspecifier => .pure ?_
    simpa [ImportKind.parts] using hspecifier.1
  split
  · refine ident_meets.bind fun _ hname => Meets.skip.bind fun {mark _ _} _ _ => ?_
    refine importTarget_meets.bind fun _ htarget => .pure ?_
    simpa [ImportKind.parts] using hname.laid.append ((Laid.passed mark).append htarget)
  · exact importClause_meets

theorem importStatement_meets (hkind : source.peek.kind ≠ .endOfText) :
    importStatement.Meets run setting source (¬run.clean) fun read statement =>
      Over run read statement.outline := by
  refine .node ((Meets.skip_some hkind).bind fun {word _ middle} _ hword => ?_)
  obtain ⟨typeOnly, htypeOnly⟩ := importTypeOnly_observes middle
  refine htypeOnly.meets ?_
  refine Meets.when (fun _ => True) (fun _ => Meets.skip) (fun _ => trivial)
    fun {marker _} _ _ => ?_
  refine importKind_meets.bind fun _ hkind => ?_
  refine endStatement_meets.bind fun {last _ _} _ _ => .pure ?_
  have hparts := (Laid.passed (word ++ marker)).append (hkind.append (Laid.passed last))
  simpa [Statement.outline, StatementKind.outline] using hparts.joined (by simp [hword])

/-! ## Variables and functions -/

theorem literalInitializer_meets : literalInitializer.Meets run setting source True
    fun _ found => Marks setting.file setting.text found.2 := by
  refine literal_meets.bind fun _ hmarks => Observes.peek.meets ?_
  split
  · exact .pure hmarks
  · exact .pure hmarks
  · exact .pure hmarks
  · exact .pure hmarks
  · split
    · exact .pure hmarks
    · exact .fail trivial

theorem initializer_meets {kind : VarKind} :
    (initializer kind).Meets run setting source failing fun _ _ => True := by
  refine Meets.bind (M := fun _ (found? : Option (Literal × Span)) =>
    ∀ found, found? = some found → Marks setting.file setting.text found.2)
    (.attempt (fun _ => literalInitializer_meets) ?_ nofun) fun {_ found? _} _ hmarks => ?_
  · rintro _ _ hmarks _ ⟨⟩
    exact hmarks
  · cases found? with
    | some found =>
        obtain ⟨literal, span⟩ := found
        split
        next heq =>
          simp only [Option.some.injEq, Prod.mk.injEq] at heq
          obtain ⟨rfl, rfl⟩ := heq
          split
          · exact .pure trivial
          · refine Meets.bind (M := fun _ _ => True) (.report (hmarks _ rfl) fun _ => trivial)
              fun _ _ => .pure trivial
        next heq => simp at heq
    | none =>
        refine Meets.bind (M := fun _ _ => True) (.reportHere fun _ => trivial) fun _ _ => ?_
        exact skipInitializer_meets.bind fun _ _ => .pure trivial

section

variable [setting.Grounded]

theorem declarator_meets {kind : VarKind} : (declarator kind).Meets run setting source (¬run.clean)
    fun read declarator => Over run read declarator.outline := by
  refine .node (ident_meets.bind fun _ hname => ?_)
  refine (Meets.passIf (by simp)).bind fun {bang _ _} _ _ => ?_
  refine (typeAfter_meets (by simp)).bind fun _ htype => ?_
  refine Meets.ifNext (fun _ _ => True) (by simp) (fun _ _ => initializer_meets) trivial
    fun {init _ _} _ _ => .pure ?_
  have hparts := hname.laid.append ((Laid.passed bang).append (htype.append (Laid.passed init)))
  simpa [Declarator.outline] using hparts.joined (by simp [hname.ne_nil])

/-- The keyword and the variables after it. -/
theorem varDecl_meets {kind : VarKind} (hkind : source.peek.kind ≠ .endOfText) :
    (varDecl kind).Meets run setting source (¬run.clean) fun read decl => read ≠ [] ∧
      Laid run Gap.any read (decl.declarators.map Declarator.outline) := by
  refine (Meets.skip_some hkind).bind fun {word _ _} _ hword => ?_
  refine Meets.bind (M := fun read found => Laid run Gap.any read (found.map Declarator.outline))
    (.collect .nothing fun {read found _} _ hread => ?_) fun _ hfound => ?_
  · refine declarator_meets.bind fun _ hdeclarator => ?_
    refine (Meets.passIf (by simp)).bind fun {comma again _} _ hcomma => .pure ⟨?_, ?_⟩
    · simp [hdeclarator.ne_nil]
    · simpa using hread.append (hdeclarator.laid.append (Laid.passed comma))
  · refine endStatement_meets.bind fun {last _ _} _ _ => .pure ⟨by simp [hword], ?_⟩
    simpa using (Laid.passed word).append (hfound.append (Laid.passed last))

/-- One that may be anonymous takes the place of its keyword for its name. -/
theorem functionDecl_meets {anonymous : Bool} (hkind : source.peek.kind ≠ .endOfText) :
    (functionDecl anonymous).Meets run setting source (¬run.clean) fun read decl =>
      Laid run Gap.any read (decl.name.outline :: decl.signature.parts) := by
  refine Meets.bind (M := fun read token => read = [token]) (.advance hkind rfl)
    fun {_ keyword _} _ hread => Observes.peekKind.meets ?_
  subst hread
  refine Meets.either (fun read name => Laid run Gap.any ([keyword] ++ read) [name.outline])
    (fun _ => .pure ?_) (fun _ => ?_) fun _ hname => ?_
  · simpa [Ident.outline] using (Over.token keyword).laid
  · refine ident_meets.mono fun hname => ?_
    simpa using (Laid.passed [keyword]).append hname.laid
  refine signature_meets.bind fun _ hsignature => Observes.peekKind.meets ?_
  refine Meets.either (fun _ _ => True) (fun _ => skipBody_meets.trivially)
    (fun _ => endStatement_meets) fun {rest _ _} _ _ => .pure ?_
  have hparts := hname.append (hsignature.2.append (Laid.passed rest))
  simpa using hparts

/-! ## Classes, interfaces, type aliases and enumerations -/

theorem optionalRef_meets : (optional typeRef).Meets run setting source failing
    fun read ref? => Laid run Gap.head read (ref?.toList.map TypeRef.outline) :=
  .optional_laid rfl (fun _ => rfl) (typeRef_meets.mono Over.laid)

theorem heritage_meets : heritage.Meets run setting source failing fun read found =>
    Laid run Gap.head read (found.map TypeRef.outline) := by
  refine .collect .nothing fun {read found _} _ hread => ?_
  refine optionalRef_meets.bind fun {_ ref? _} _ href => ?_
  cases ref? with
  | some ref =>
      refine Meets.bind (M := fun last again => Laid run Gap.head last [] ∧
        (again = true → last ≠ [])) (.skipIf (by simp) (fun token hkind =>
          ⟨.token (hkind ▸ Gap.head_comma), by simp⟩) fun _ => ⟨.nothing, by simp⟩)
        fun _ hcomma => .pure ⟨fun hagain => by simp [hcomma.2 hagain], ?_⟩
      simpa using hread.append (href.append hcomma.1)
  | none => exact .pure ⟨by simp, by simpa using hread.append href⟩

omit [setting.Grounded] in
theorem braced_meets {α : Type} {separators : List Mark} {body : Parser α}
    {outlines : α → List Outline} (hbody : ∀ {rest}, setting.Started rest →
      body.Meets run setting rest (¬run.clean) fun read found =>
        Laid run (Gap.body separators) read (outlines found)) :
    (braced body).Meets run setting source (¬run.clean) fun read found =>
      Bodied run separators read [] (outlines found) := by
  refine Meets.bind (M := fun read _ => ∃ opening, read = [opening] ∧
    opening.kind = .mark .openBrace) (.expect (by simp) fun token hkind => ⟨token, rfl, hkind⟩)
    fun hfollows hread => ?_
  obtain ⟨opening, rfl, hopening⟩ := hread
  refine (hbody (hfollows.started (by simp))).bind fun _ hinside => ?_
  refine (Meets.close hinside).bind fun _ hclosed => .pure ?_
  simpa using Bodied.bodied .nothing hopening hclosed

theorem classDecl_meets {isAbstract anonymous : Bool} (hkind : source.peek.kind = .word .class) :
    (classDecl isAbstract anonymous).Meets run setting source (¬run.clean) fun read decl =>
      read ≠ [] ∧ Bodied run [.semicolon, .comma] read decl.head
        (decl.members.map ClassMember.outline) := by
  refine (Meets.skip_word hkind).bind fun _ hword => Observes.peekKind.meets ?_
  refine Meets.either (fun read name => Laid run Gap.head read (name.toList.map Ident.outline))
    (fun _ => .map ?_) (fun _ => .pure .nothing) fun _ hname => ?_
  · exact ident_meets.mono fun hname => by simpa using hname.laid
  refine typeParams_meets.bind fun _ htypeParams => ?_
  refine Meets.ifNext (fun read base => Laid run Gap.head read (base.toList.map TypeRef.outline))
    (by simp) (fun _ hkind => ?_) .nothing fun _ hbase => ?_
  · refine optionalRef_meets.mono fun href => ?_
    exact (Laid.token (by simp [hkind, Gap.head])).append href
  refine Meets.ifNext (fun read found => Laid run Gap.head read (found.map TypeRef.outline))
    (by simp) (fun _ hkind => ?_) .nothing fun _ himplemented => ?_
  · refine heritage_meets.mono fun hfound => ?_
    exact (Laid.token (by simp [hkind, Gap.head])).append hfound
  refine (braced_meets (Setting.Grounded.meets .classMembers)).bind fun _ hmembers =>
    .pure ⟨by simp [hword.1], ?_⟩
  have hbody := hmembers.after (hword.2.append (hname.append (htypeParams.append
    (hbase.append himplemented))))
  simpa [ClassDecl.head] using hbody

theorem interfaceDecl_meets (hkind : source.peek.kind = .word .interface) :
    interfaceDecl.Meets run setting source (¬run.clean) fun read decl =>
      read ≠ [] ∧
        Bodied run [.semicolon, .comma] read decl.head (memberOutlines decl.members) := by
  refine (Meets.skip_word hkind).bind fun _ hword => ident_meets.bind fun _ hname => ?_
  refine typeParams_meets.bind fun _ htypeParams => ?_
  refine Meets.ifNext (fun read found => Laid run Gap.head read (found.map TypeRef.outline))
    (by simp) (fun _ hkind => ?_) .nothing fun _ hbases => ?_
  · refine heritage_meets.mono fun hfound => ?_
    exact (Laid.token (by simp [hkind, Gap.head])).append hfound
  refine (braced_meets (Setting.Grounded.meets .members)).bind fun _ hmembers =>
    .pure ⟨by simp [hword.1], ?_⟩
  have hbody := hmembers.after (hword.2.append (hname.laid.append (htypeParams.append hbases)))
  simpa [InterfaceDecl.head, memberOutlines_eq_map] using hbody

theorem typeAlias_meets : typeAlias.Meets run setting source (¬run.clean) fun read decl =>
    read ≠ [] ∧ Laid run Gap.any read decl.parts := by
  refine Meets.skip.bind fun {word _ _} _ _ => ident_meets.bind fun hfollows hname => ?_
  have hstarted := hfollows.started hname.ne_nil
  refine typeParams_meets.bind fun hparams htypeParams => ?_
  refine (Meets.pass (by simp)).bind fun {mark _ _} hmark _ => ?_
  refine (type_meets (hmark.stays_started (hparams.stays_started hstarted))).bind
    fun _ htype => ?_
  refine endStatement_meets.bind fun {last _ _} _ _ => .pure ⟨by simp [hname.ne_nil], ?_⟩
  have hparts := (Laid.passed word).append (hname.laid.append (htypeParams.loosen.append
    ((Laid.passed mark).append (htype.append (Laid.passed last)))))
  simpa [TypeAlias.parts] using hparts

omit [setting.Grounded] in
theorem enumInitializer_meets : enumInitializer.Meets run setting source failing
    fun _ _ => True := by
  refine Meets.bind (M := fun _ _ => True) (.attempt (M := fun _ _ _ => True) (fun _ => ?_)
    (fun _ => trivial) trivial) fun {_ found? _} _ _ => ?_
  · refine literal_meets.bind fun _ _ => Observes.peekKind.meets ?_
    split
    · exact .pure trivial
    · exact .fail trivial
  · cases found? with
    | some found => exact .pure trivial
    | none =>
        refine Meets.bind (M := fun _ _ => True) (.reportHere fun _ => trivial) fun _ _ => ?_
        exact skipInitializer_meets.bind fun _ _ => .pure trivial

omit [setting.Grounded] in
theorem enumMember_meets : enumMember.Meets run setting source (¬run.clean) fun read member =>
    Over run read member.outline := by
  refine .node (propertyName_meets.bind fun _ hname => ?_)
  refine Meets.ifNext (fun _ _ => True) (by simp) (fun _ _ => enumInitializer_meets) trivial
    fun {init _ _} _ _ => .pure ?_
  simpa [EnumMember.outline] using
    (hname.laid.append (Laid.passed init)).joined (by simp [hname.ne_nil])

omit [setting.Grounded] in
theorem enumMember?_meets : enumMember?.Meets run setting source failing fun read member? =>
    Laid run (Gap.body [.comma]) read (member?.toList.map EnumMember.outline) := by
  refine Meets.settle_bind enumMember_meets
    (fun _ hmember => .pure (by simpa using hmember.laid)) fun _ hnoisy => ?_
  refine Meets.when (fun _ => True) (fun _ => Meets.skip) (fun _ => trivial) fun _ _ => ?_
  exact skipGroupsUntil_meets.bind fun _ _ => .pure (.of_noisy hnoisy)

omit [setting.Grounded] in
theorem enumDecl_meets {isConst : Bool} : (enumDecl isConst).Meets run setting source (¬run.clean)
    fun read decl => read ≠ [] ∧
      Laid run Gap.any read (decl.name.outline :: decl.members.map EnumMember.outline) := by
  refine Meets.skip.bind fun {word _ _} _ _ => ident_meets.bind fun _ hname => ?_
  refine Meets.bind (M := fun read found => Bodied run [.comma] read []
    (found.map EnumMember.outline)) (braced_meets fun _ => ?_) fun _ hmembers =>
      .pure ⟨by simp [hname.ne_nil], ?_⟩
  · refine .commaSeparated (by simp [Gap.body]) fun _ _ => ?_
    exact enumMember?_meets.bind fun _ hmember => .pure (by simpa using hmember)
  · simpa using (Laid.passed word).append (hname.laid.append hmembers.laid)

/-! ## Namespaces and modules -/

theorem block_meets : block.Meets run setting source (¬run.clean) fun read found =>
    Bodied run [.semicolon] read [] (found.map Statement.outline) := by
  refine Meets.optional_bind (M := fun read opening => read = [opening] ∧
    opening.kind = .mark .openBrace) (.expect (by simp) fun _ hkind => ⟨rfl, hkind⟩)
    (fun hfollows hopening => ?_)
    fun {read _} _ hnoisy => .pure (.broken hnoisy (by simpa using Laid.passed read))
  obtain ⟨rfl, hopening⟩ := hopening
  refine (Setting.Grounded.meets .block (hfollows.started (by simp))).mono fun hclosed => ?_
  simpa using Bodied.bodied .nothing hopening hclosed

/-- The keyword in front belongs to the node. -/
theorem namespaceDecl_meets {before : List Token} (hbefore : Laid run Gap.head before []) :
    namespaceDecl.Meets run setting source (¬run.clean) fun read kind =>
      Over run (before ++ read) (kind.outline (extent run.file (before ++ read))) := by
  refine Meets.bind (M := fun read name => Over run read (EntityName.outline name)) (.node ?_)
    fun _ hname => block_meets.bind fun _ hbody => .pure ?_
  · refine ident_meets.bind fun _ hfirst => ?_
    refine Meets.bind (M := fun read found => Laid run Gap.any read (found.map Ident.outline))
      (.collect .nothing fun {read found _} _ hread => ?_) fun _ hrest => .pure ?_
    · refine (Meets.passIf (by simp)).bind fun {dot again _} _ hdot => ?_
      split
      · refine ident_meets.bind fun _ hident => .pure ⟨by simp [hident.ne_nil], ?_⟩
        simpa using hread.append ((Laid.passed dot).append hident.laid)
      · exact .pure ⟨by simp, by simpa using hread.append (Laid.passed dot)⟩
    · simpa [EntityName.outline, EntityName.segments] using
        (hfirst.laid.append hrest).joined (by simp [hfirst.ne_nil])
  · have hnode := (hbody.after (hbefore.append hname.laid)).joined (by simp [hname.ne_nil])
    simpa [StatementKind.outline, statementOutlines_eq_map] using hnode

theorem ambientModule_meets {before : List Token} (hbefore : Laid run Gap.head before []) :
    ambientModule.Meets run setting source (¬run.clean) fun read kind =>
      Over run (before ++ read) (kind.outline (extent run.file (before ++ read))) := by
  refine stringLit_meets.bind fun _ hname => Observes.peekKind.meets ?_
  split
  · refine block_meets.bind fun _ hbody => .pure ?_
    have hnode := (hbody.after (hbefore.append hname.laid)).joined (by simp [hname.ne_nil])
    simpa [StatementKind.outline, statementOutlines_eq_map] using hnode
  · refine endStatement_meets.bind fun {last _ _} _ _ => .pure ?_
    have hparts := hbefore.loosen.append (hname.laid.append (Laid.passed last))
    simpa [StatementKind.outline] using hparts.joined (by simp [hname.ne_nil])

/-! ## All declarations -/

omit [setting.Grounded] in
theorem requireAmbient_meets {ambient : Bool} {declaration : RuntimeDeclaration} :
    (requireAmbient ambient declaration).Meets run setting source failing fun read _ =>
      read = [] := by
  unfold requireAmbient
  split
  · exact .reportHere fun _ => rfl
  · exact .pure rfl

theorem variableStatement_meets {ambient : Bool} {kind : VarKind}
    (hkind : source.peek.kind ≠ .endOfText) :
    (variableStatement ambient kind).Meets run setting source (¬run.clean) fun read kind =>
      Over run read (kind.outline (extent run.file read)) := by
  refine requireAmbient_meets.bind fun hfollows hread => ?_
  subst hread
  rw [← hfollows.peek_of_nil] at hkind
  refine (varDecl_meets hkind).bind fun _ hdecl => .pure ?_
  simpa [StatementKind.outline] using hdecl.2.joined hdecl.1

theorem functionStatement_meets {ambient async anonymous : Bool}
    (hkind : source.peek.kind ≠ .endOfText)
    (hafter : async = true → (source.ahead 1).kind ≠ .endOfText) :
    (functionStatement ambient async anonymous).Meets run setting source (¬run.clean)
      fun read kind => Over run read (kind.outline (extent run.file read)) := by
  refine requireAmbient_meets.bind fun hfollows hread => ?_
  subst hread
  rw [← hfollows.peek_of_nil] at hkind
  rw [← hfollows.ahead_of_nil] at hafter
  have hrest (before : List Token) {rest : TokenStream} (hkind : rest.peek.kind ≠ .endOfText) :
      (functionDecl anonymous >>= fun decl => Pure.pure (StatementKind.function decl)).Meets run
        setting rest (¬run.clean) fun read kind =>
          Over run (before ++ read) (kind.outline (extent run.file (before ++ read))) := by
    refine (functionDecl_meets hkind).bind fun _ hdecl => .pure ?_
    have hparts := (Laid.passed before).append hdecl
    simpa [StatementKind.outline] using hparts.joined (by simp [hdecl.ne_nil])
  cases async with
  | true =>
      refine Meets.bind (M := fun read token => read = [token]) (.advance hkind rfl)
        fun hfollows hread => ?_
      subst hread
      exact hrest _ (by rw [hfollows.peek_of_one]; exact hafter rfl)
  | false => exact hrest [] hkind

theorem classStatement_meets {ambient isAbstract anonymous : Bool}
    (hkind : source.peek.kind = .word (if isAbstract then .abstract else .class))
    (hafter : isAbstract = true → (source.ahead 1).kind = .word .class) :
    (classStatement ambient isAbstract anonymous).Meets run setting source (¬run.clean)
      fun read kind => Over run read (kind.outline (extent run.file read)) := by
  refine requireAmbient_meets.bind fun hfollows hread => ?_
  subst hread
  rw [← hfollows.peek_of_nil] at hkind
  rw [← hfollows.ahead_of_nil] at hafter
  have hrest {before : List Token} {rest : TokenStream} (hbefore : Laid run Gap.head before [])
      (hkind : rest.peek.kind = .word .class) :
      (classDecl isAbstract anonymous >>= fun decl => Pure.pure (StatementKind.class decl)).Meets
        run setting rest (¬run.clean) fun read kind =>
          Over run (before ++ read) (kind.outline (extent run.file (before ++ read))) := by
    refine (classDecl_meets hkind).bind fun _ hdecl => .pure ?_
    have hnode := (hdecl.2.after hbefore).joined (by simp [hdecl.1])
    simpa [StatementKind.outline] using hnode
  cases isAbstract with
  | true =>
      refine Meets.bind (M := fun read token => read = [token] ∧ Laid run Gap.head read [])
        (.advance (by simp [hkind]) ⟨rfl, .token (by simp [hkind, Gap.head])⟩)
        fun hfollows hread => ?_
      obtain ⟨rfl, hbefore⟩ := hread
      exact hrest hbefore (by rw [hfollows.peek_of_one]; exact hafter rfl)
  | false => exact hrest .nothing hkind

theorem declarationKind_meets {ambient anonymous : Bool} :
    (declarationKind ambient anonymous).Meets run setting source (¬run.clean) fun read kind =>
      Over run read (kind.outline (extent run.file read)) := by
  refine Observes.peekKind.meets ((Observes.kindAhead 1).meets ?_)
  dsimp only
  have henum {isConst : Bool} (before : List Token) {rest : TokenStream} :
      (enumDecl isConst >>= fun decl => Pure.pure (StatementKind.enum decl)).Meets run setting
        rest (¬run.clean) fun read kind =>
          Over run (before ++ read) (kind.outline (extent run.file (before ++ read))) := by
    refine enumDecl_meets.bind fun _ hdecl => .pure ?_
    have hparts := (Laid.passed before).append hdecl.2
    simpa [StatementKind.outline] using hparts.joined (by simp [hdecl.1])
  split
  next hkind => exact variableStatement_meets (by simp [hkind])
  next hkind => exact variableStatement_meets (by simp [hkind])
  next hkind =>
    split
    · exact Meets.skip.bind fun _ _ => henum _
    · exact variableStatement_meets (by simp [hkind])
  next hkind => exact functionStatement_meets (by simp [hkind]) nofun
  next hkind =>
    split
    next hafter => exact functionStatement_meets (by simp [hkind]) fun _ => by simp [hafter]
    · exact .refuse
  next hkind => exact classStatement_meets hkind nofun
  next hkind =>
    split
    next hafter => exact classStatement_meets hkind fun _ => hafter
    · exact .refuse
  next hkind =>
    refine (interfaceDecl_meets hkind).bind fun _ hdecl => .pure ?_
    simpa [StatementKind.outline] using hdecl.2.joined hdecl.1
  next =>
    split
    · refine typeAlias_meets.bind fun _ hdecl => .pure ?_
      simpa [StatementKind.outline] using hdecl.2.joined hdecl.1
    · exact .refuse
  next => exact henum []
  next hkind => exact (Meets.skip_word hkind).bind fun _ hword => namespaceDecl_meets hword.2
  next hkind =>
    refine (Meets.skip_word hkind).bind fun _ hword => ?_
    split
    · exact ambientModule_meets hword.2
    · exact namespaceDecl_meets hword.2
  next hkind =>
    split
    · refine (Meets.skip_word hkind).bind fun _ hword => block_meets.bind fun _ hbody => .pure ?_
      have hnode := (hbody.after hword.2).joined (by simp [hword.1])
      simpa [StatementKind.outline, statementOutlines_eq_map] using hnode
    · exact .refuse
  · exact .refuse

theorem declaration_meets {ambient anonymous : Bool} :
    (declaration ambient anonymous).Meets run setting source (¬run.clean) fun read statement =>
      Over run read statement.outline :=
  .node (declarationKind_meets.mono fun hover => by rwa [Statement.outline])

theorem ambientDeclaration_meets : ambientDeclaration.Meets run setting source (¬run.clean)
    fun read statement => Over run read statement.outline := by
  refine .node (Meets.skip.bind fun {word _ _} _ _ => ?_)
  refine declaration_meets.mono fun hinner => ?_
  simpa [Statement.outline, StatementKind.outline] using
    ((Laid.passed word).append hinner.laid).joined (by simp [hinner.ne_nil])

end

end DeclFile.Parser
