import DeclFile.Parser.Declaration
import DeclFile.Parser.Import
import DeclFile.Proofs.Succession.Member

/-! # Diagnostics of declarations and imports

A literal that a variable must not have is reported at its last token, and nothing is reported
while it is read. Everything else is reported at the next token.
-/

namespace DeclFile

/-- A result comes from a result of the first part. -/
theorem Evaluates.exists_of_bind {α β : Type} {place : Place} {source : TokenStream}
    {first : Parser α} {next : α → Parser β} {outcome : Outcome TokenStream β} {peak : Nat}
    {result : β} (h : Evaluates place (first >>= next) source outcome peak)
    (hresult : outcome.result? = some result) :
    ∃ before peak₁ found after peak₂, Evaluates place first source before peak₁ ∧
      before.result? = some found ∧ Evaluates place (next found) before.rest after peak₂ ∧
      after.result? = some result ∧ after.rest = outcome.rest := by
  obtain ⟨before, _, hbefore, hafter⟩ := h.parts
  split at hafter
  next found hfound =>
    obtain ⟨after, _, hafter, rfl⟩ := hafter
    exact ⟨before, _, found, after, _, hbefore, hfound, hafter, hresult, rfl⟩
  next =>
    subst hafter
    cases hresult

namespace Parser

variable {α : Type} {text : List Token} {place : Place} {source : TokenStream}

/-! ## Variables and functions -/

/-- The token whose span goes with a literal is the last one that is read of it. -/
theorem literal_span {outcome : Outcome TokenStream (Literal × Span)} {peak : Nat}
    {found : Literal × Span} (hlies : source.LiesIn text)
    (h : Evaluates place literal source outcome peak) (hfound : outcome.result? = some found) :
    source.front ≤ found.2.start.offset ∧ found.2.start.offset ≤ outcome.rest.front := by
  obtain ⟨before, _, negative, after, _, hsign, -, h, hfound, hrest⟩ := h.exists_of_bind hfound
  obtain ⟨read, _, token, last, _, hread, htoken, h, hfound, hlast⟩ := h.exists_of_bind hfound
  have hbefore := hsign.liesIn hlies
  have hfront := hread.front_le hbefore
  obtain rfl := hread.unique (.advance _)
  cases htoken
  rw [← hrest, ← hlast]
  dsimp only at h
  split at h
  · obtain rfl := h.unique (.pure _ _)
    cases hfound
    exact ⟨hsign.front_le hlies, hfront⟩
  · obtain rfl := h.unique (.fail _)
    cases hfound

theorem literalInitializer_span {outcome : Outcome TokenStream (Literal × Span)} {peak : Nat}
    {found : Literal × Span} (hlies : source.LiesIn text)
    (h : Evaluates place literalInitializer source outcome peak)
    (hfound : outcome.result? = some found) :
    source.front ≤ found.2.start.offset ∧ found.2.start.offset ≤ outcome.rest.front := by
  obtain ⟨before, _, literal, after, _, hliteral, hresult, h, hfound, hrest⟩ :=
    h.exists_of_bind hfound
  obtain ⟨hlow, hhigh⟩ := literal_span hlies hliteral hresult
  have hleft := h.front_le (hliteral.liesIn hlies)
  obtain ⟨peeked, _, next, last, _, hpeek, -, h, hfound, -⟩ := h.exists_of_bind hfound
  have hsame : found = literal := by
    split at h
    any_goals
      obtain rfl := h.unique (.pure _ _)
      exact (Option.some.inj hfound).symm
    split at h
    · obtain rfl := h.unique (.pure _ _)
      exact (Option.some.inj hfound).symm
    · obtain rfl := h.unique (.fail _)
      cases hfound
  rw [hsame, ← hrest]
  exact ⟨hlow, Nat.le_trans hhigh hleft⟩

theorem initializer_proceeds (kind : VarKind) : (initializer kind).Proceeds text place source := by
  refine .bind_of_quiet fun {before peak} hlies hwhole => ?_
  obtain ⟨outcome, _, hevaluates, rfl⟩ := hwhole.parts
  obtain ⟨found, hfound, hquiet, heq⟩ | heq := outcome.attempted_cases source
  · rw [heq]
    refine ⟨hquiet, ?_⟩
    rintro _ ⟨⟩
    obtain ⟨hlow, hhigh⟩ := literalInitializer_span hlies hevaluates hfound
    obtain ⟨literal, span⟩ := found
    dsimp only
    split
    · exact .pure
    · exact .bind (.report (.inl hlow) hhigh) fun _ _ => .pure
  · rw [heq]
    refine ⟨rfl, ?_⟩
    rintro _ ⟨⟩
    exact .bind .reportHere fun _ _ => skipInitializer_proceeds.bind fun _ _ => .pure

theorem requireAmbient_proceeds_bind {ambient : Bool} {declaration : RuntimeDeclaration}
    {next : Unit → Parser α} (h : ∀ source, (next ()).Proceeds text place source) :
    (requireAmbient ambient declaration >>= next).Proceeds text place source := by
  cases ambient
  · exact .bind .reportHere fun _ => h
  · exact .observe (.pure ()) (h source)

theorem braced_proceeds {body : Parser α} (h : ∀ source, body.Proceeds text place source) :
    (braced body).Proceeds text place source :=
  .bind .expect fun _ rest => (h rest).bind fun _ _ => .bind .expectOrReport fun _ _ => .pure

section

variable [place.Successive text]

theorem declarator_proceeds (kind : VarKind) : (declarator kind).Proceeds text place source :=
  .spanned (ident_proceeds.bind fun _ _ => .bind .skipIf fun _ _ =>
    (typeAfter_proceeds _).bind fun _ _ => .bind .skipIf fun _ _ =>
      .either (initializer_proceeds kind) .pure fun _ _ => .pure)

theorem varDecl_proceeds (kind : VarKind) : (varDecl kind).Proceeds text place source :=
  .bind .advance fun _ _ => .bind (.collect fun _ => (declarator_proceeds kind).bind fun _ _ =>
    .bind .skipIf fun _ _ => .pure) fun _ _ => endStatement_proceeds.bind fun _ _ => .pure

theorem functionDecl_proceeds (anonymous : Bool) :
    (functionDecl anonymous).Proceeds text place source := by
  refine .bind .advance fun keyword rest => .observe .peekKind (.either .pure ident_proceeds
    fun _ _ => signature_proceeds.bind fun _ _ => .observe .peekKind ?_)
  exact .either skipBody_proceeds endStatement_proceeds fun _ _ => .pure

/-! ## Classes, interfaces, type aliases and enumerations -/

theorem heritage_proceeds : heritage.Proceeds text place source := by
  refine .collect fun source => typeRef_proceeds.optional.bind fun found rest => ?_
  split
  · exact .bind .skipIf fun _ _ => .pure
  · exact .pure

theorem classDecl_proceeds (isAbstract anonymous : Bool) :
    (classDecl isAbstract anonymous).Proceeds text place source := by
  refine .bind .advance fun _ _ => .observe .peekKind (.either (.map ident_proceeds) .pure
    fun _ _ => typeParams_proceeds.bind fun _ _ => .bind .skipIf fun _ _ => ?_)
  refine .either typeRef_proceeds.optional .pure fun _ _ => .bind .skipIf fun _ _ => ?_
  exact .either heritage_proceeds .pure fun _ _ =>
    (braced_proceeds fun _ => Place.Successive.proceeds .classMembers).bind fun _ _ => .pure

theorem interfaceDecl_proceeds : interfaceDecl.Proceeds text place source :=
  .bind .advance fun _ _ => ident_proceeds.bind fun _ _ => typeParams_proceeds.bind fun _ _ =>
    .bind .skipIf fun _ _ => .either heritage_proceeds .pure fun _ _ =>
      (braced_proceeds fun _ => Place.Successive.proceeds .members).bind fun _ _ => .pure

theorem typeAlias_proceeds : typeAlias.Proceeds text place source :=
  .bind .advance fun _ _ => ident_proceeds.bind fun _ _ => typeParams_proceeds.bind fun _ _ =>
    .bind .expect fun _ _ => type_proceeds.bind fun _ _ =>
      endStatement_proceeds.bind fun _ _ => .pure

end

theorem enumInitializer_proceeds : enumInitializer.Proceeds text place source := by
  refine .bind .attempt fun found rest => ?_
  split
  · exact .pure
  · exact .bind .reportHere fun _ _ => skipInitializer_proceeds.bind fun _ _ => .pure

theorem enumMember_proceeds : enumMember.Proceeds text place source :=
  .spanned (propertyName_proceeds.bind fun _ _ => .bind .skipIf fun _ _ =>
    .either enumInitializer_proceeds .pure fun _ _ => .pure)

theorem enumMember?_proceeds : enumMember?.Proceeds text place source := by
  refine enumMember_proceeds.settle.bind fun settled rest => ?_
  split
  · exact .pure
  · exact .when .advance fun _ => (skipGroupsUntil_proceeds _).bind fun _ _ => .pure

theorem enumDecl_proceeds (isConst : Bool) : (enumDecl isConst).Proceeds text place source :=
  .bind .advance fun _ _ => ident_proceeds.bind fun _ _ =>
    .bind (braced_proceeds fun _ => .commaSeparated fun _ =>
      enumMember?_proceeds.bind fun _ _ => .pure) fun _ _ => .pure

/-! ## Namespaces and modules -/

section

variable [place.Successive text]

theorem block_proceeds : block.Proceeds text place source := by
  refine .bind (.optional .expect) fun opening rest => ?_
  split
  · exact Place.Successive.proceeds .block
  · exact .pure

theorem namespaceDecl_proceeds : namespaceDecl.Proceeds text place source := by
  refine .bind (.spanned (ident_proceeds.bind fun _ _ => .bind (.collect fun source => ?_)
    fun _ _ => .pure)) fun _ _ => block_proceeds.bind fun _ _ => .pure
  refine .bind .skipIf fun skipped rest => ?_
  split
  · exact ident_proceeds.bind fun _ _ => .pure
  · exact .pure

theorem ambientModule_proceeds : ambientModule.Proceeds text place source := by
  refine stringLit_proceeds.bind fun _ source => .observe .peekKind ?_
  split
  · exact block_proceeds.bind fun _ _ => .pure
  · exact endStatement_proceeds.bind fun _ _ => .pure

/-! ## All declarations -/

theorem declarationKind_proceeds (ambient anonymous : Bool) :
    (declarationKind ambient anonymous).Proceeds text place source := by
  have hvariable (kind : VarKind) : (variableStatement ambient kind).Proceeds text place source :=
    requireAmbient_proceeds_bind fun _ => (varDecl_proceeds kind).bind fun _ _ => .pure
  have hfunction (async : Bool) :
      (functionStatement ambient async anonymous).Proceeds text place source :=
    requireAmbient_proceeds_bind fun _ => .when .advance fun _ =>
      (functionDecl_proceeds anonymous).bind fun _ _ => .pure
  have hclass (isAbstract : Bool) :
      (classStatement ambient isAbstract anonymous).Proceeds text place source :=
    requireAmbient_proceeds_bind fun _ => .when .advance fun _ =>
      (classDecl_proceeds isAbstract anonymous).bind fun _ _ => .pure
  refine .observe .peekKind (.observe (.kindAhead 1) ?_)
  dsimp only
  split
  · exact hvariable _
  · exact hvariable _
  · split
    · exact .bind .advance fun _ _ => (enumDecl_proceeds true).bind fun _ _ => .pure
    · exact hvariable _
  · exact hfunction _
  · split
    · exact hfunction _
    · exact .refuse
  · exact hclass _
  · split
    · exact hclass _
    · exact .refuse
  · exact interfaceDecl_proceeds.bind fun _ _ => .pure
  · split
    · exact typeAlias_proceeds.bind fun _ _ => .pure
    · exact .refuse
  · exact (enumDecl_proceeds false).bind fun _ _ => .pure
  · exact .bind .advance fun _ _ => namespaceDecl_proceeds
  · refine .bind .advance fun _ _ => ?_
    split
    · exact ambientModule_proceeds
    · exact namespaceDecl_proceeds
  · split
    · exact .bind .advance fun _ _ => block_proceeds.bind fun _ _ => .pure
    · exact .refuse
  · exact .refuse

theorem declaration_proceeds (ambient anonymous : Bool) :
    (declaration ambient anonymous).Proceeds text place source :=
  (declarationKind_proceeds ambient anonymous).spanned

theorem ambientDeclaration_proceeds : ambientDeclaration.Proceeds text place source :=
  .spanned (.bind .advance fun _ _ => declaration_proceeds true false)

end

/-! ## Imports -/

theorem specifierTypeOnly_proceeds : specifierTypeOnly.Proceeds text place source := by
  refine .observe .peekKind (.observe (.kindAhead 1) (.observe (.kindAhead 2) ?_))
  split
  · exact .pure
  · split <;> exact .pure

theorem specifiers_proceeds {specifier : Bool → Parser (Span → α)}
    (h : ∀ typeOnly source, (specifier typeOnly).Proceeds text place source) :
    (specifiers specifier).Proceeds text place source := by
  refine .bind .expect fun _ _ => .bind (.commaSeparated fun source => ?_) fun _ _ =>
    .bind .expect fun _ _ => .pure
  exact .bind (.spanned (specifierTypeOnly_proceeds.bind fun typeOnly _ =>
    .when .advance fun _ => h typeOnly _)) fun _ _ => .pure

theorem moduleSpecifier_proceeds : moduleSpecifier.Proceeds text place source := by
  refine stringLit_proceeds.bind fun _ rest =>
    .bind (.observe .peek (.observe (.kindAhead 1) ?_)) fun _ _ => .pure
  split
  · exact .bind .advance fun _ _ => skipGroup_proceeds
  · exact .pure

theorem importBindings_proceeds : importBindings.Proceeds text place source := by
  refine .bind .skipIf fun skipped rest => ?_
  split
  · exact .bind .expect fun _ _ => ident_proceeds.bind fun _ _ => .pure
  · exact .bind (specifiers_proceeds fun _ _ => exportName_proceeds.bind fun _ _ =>
      .bind .skipIf fun _ _ => .either ident_proceeds .pure fun _ _ => .pure) fun _ _ => .pure

theorem importTarget_proceeds : importTarget.Proceeds text place source := by
  refine .observe .peek (.observe (.kindAhead 1) ?_)
  split
  · exact .bind .advance fun _ _ => .bind .advance fun _ _ => stringLit_proceeds.bind fun _ _ =>
      .bind .expect fun _ _ => .pure
  · exact entityName_proceeds.bind fun _ _ => .pure

theorem importClause_proceeds : importClause.Proceeds text place source := by
  refine .observe .peekKind (.either (.map ident_proceeds) .pure fun default rest => ?_)
  refine .either .pure .skipIf fun more rest => .either (.map importBindings_proceeds) .pure
    fun _ _ => .bind .expect fun _ _ => moduleSpecifier_proceeds.bind fun _ _ => .pure

theorem importKind_proceeds : importKind.Proceeds text place source := by
  refine .observe .peekKind (.observe (.kindAhead 1) ?_)
  split
  · exact moduleSpecifier_proceeds.bind fun _ _ => .pure
  split
  · exact ident_proceeds.bind fun _ _ => .bind .advance fun _ _ =>
      importTarget_proceeds.bind fun _ _ => .pure
  · exact importClause_proceeds

theorem importStatement_proceeds : importStatement.Proceeds text place source :=
  .spanned (.bind .advance fun _ _ =>
    .bind (.observe .peekKind (.observe (.kindAhead 1) .pure)) fun _ _ =>
      .when .advance fun _ => importKind_proceeds.bind fun _ _ =>
        endStatement_proceeds.bind fun _ _ => .pure)

end Parser

end DeclFile
