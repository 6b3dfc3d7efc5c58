import DeclFile.Proofs.Brackets.Declaration
import DeclFile.Proofs.Reading.Statement

/-! # Brackets in imports, exports and statements

The attributes of an import are passed over by counting. If they do not end, all that is left of
the text is passed over, so then nothing else can be open. The goals of the grammar nest because
their parsers do where one level less is left.
-/

namespace DeclFile

variable {α : Type} {place : Place} {silent : Prop} {source : TokenStream} {awaited : List Mark}

theorem Nests.of_attributes {left : List Token} (hword : announcesAttributes source.peek = true)
    (hbrace : source.advance.peek.kind = .mark .openBrace)
    (hpasses : Parser.Passes 0 source.advance.pending left) (hleft : Nests false awaited left) :
    Nests false awaited source.pending := by
  have hidentifier : source.peek.kind = .identifier := by
    simp only [announcesAttributes, Bool.and_eq_true, beq_iff_eq] at hword
    exact hword.1.1
  rw [TokenStream.pending_eq_of_peek (show source.peek.kind ≠ _ by simp [hidentifier])]
  rw [TokenStream.pending_eq_of_peek (show source.advance.peek.kind ≠ _ by simp [hbrace])]
    at hpasses ⊢
  -- Attributes to the end of the text leave nothing that could close what is awaited.
  obtain hafter | ⟨hafter, rfl⟩ := hpasses
  · exact .attributes hword hbrace hafter hleft
  · obtain rfl := Nests.nil_iff.mp hleft
    exact .unclosed hword hbrace hafter

namespace Parser

/-! ## Imports -/

theorem specifierTypeOnly_observes_type (source : TokenStream) :
    ∃ found, Observes specifierTypeOnly source found ∧
      (found = true → source.peek.kind = .word .type) := by
  by_cases h : source.peek.kind = .word .type
  · obtain ⟨found, hfound⟩ := specifierTypeOnly_observes source
    exact ⟨found, hfound, fun _ => h⟩
  · refine ⟨false, .bind .peekKind (.bind (.kindAhead 1) (.bind (.kindAhead 2) ?_)), nofun⟩
    rw [if_pos h]
    exact .pure false

theorem specifiers_brackets {specifier : Bool → Parser (Span → α)}
    (h : ∀ typeOnly source, (specifier typeOnly).Brackets place silent source
      (.closeBrace :: awaited) (.closeBrace :: awaited)) :
    (specifiers specifier).Brackets place silent source awaited awaited := by
  refine .bind (.expect_opening rfl) fun _ _ =>
    .bind (commaSeparated_brackets fun source => ?_) fun _ _ =>
    .bind .expect_closing fun _ _ => .idle
  obtain ⟨typeOnly, htypeOnly, htype⟩ := specifierTypeOnly_observes_type source
  refine .bind (.spanned (M := Nests false (.closeBrace :: awaited)) <| .observe htypeOnly ?_)
    fun _ _ => .idle
  exact .when (fun h => .advance fun _ => .of_plain (htype h ▸ rfl)) (fun _ _ => id)
    fun _ => h typeOnly _

theorem skipImportAttributes_brackets :
    skipImportAttributes.Brackets place silent source awaited awaited := by
  refine .observe .peek <| .observe (.kindAhead 1) ?_
  rw [source.ahead_one]
  split
  next h =>
    simp only [Bool.and_eq_true, decide_eq_true_eq] at h
    refine .advance_bind (fun _ hleft => ?_) skipGroup_carries
    obtain ⟨left, hpasses, hleft⟩ := hleft
    refine .of_attributes ?_ h.1.2 hpasses hleft
    simpa [announcesAttributes] using And.intro h.1.1 h.2
  next => exact .idle

theorem moduleSpecifier_brackets :
    moduleSpecifier.Brackets place silent source awaited awaited :=
  .bind stringLit_brackets fun _ _ => .bind skipImportAttributes_brackets fun _ _ => .idle

theorem importSpecifier_brackets (typeOnly : Bool) :
    (importSpecifier typeOnly).Brackets place silent source awaited awaited := by
  refine .bind exportName_brackets fun _ _ => .bind (.skipIf rfl) fun _ _ => ?_
  exact .either (fun _ => ident_brackets) (fun _ => .idle) fun _ _ => .idle

theorem importBindings_brackets :
    importBindings.Brackets place silent source awaited awaited := by
  refine .bind (.skipIf rfl) fun _ _ => ?_
  split
  · exact .bind (.expect rfl) fun _ _ => .bind ident_brackets fun _ _ => .idle
  · exact .bind (specifiers_brackets fun _ _ => importSpecifier_brackets _) fun _ _ => .idle

theorem importTarget_brackets : importTarget.Brackets place silent source awaited awaited := by
  refine .observe .peek <| .observe (.kindAhead 1) ?_
  rw [source.ahead_one]
  split
  next h =>
    simp only [Bool.and_eq_true, decide_eq_true_eq] at h
    exact .plain_bind (h.1.1 ▸ rfl) <| .opening_bind h.2 rfl <|
      .bind stringLit_brackets fun _ _ => .bind .expect_closing fun _ _ => .idle
  next => exact .bind entityName_brackets fun _ _ => .idle

theorem importClause_brackets : importClause.Brackets place silent source awaited awaited := by
  refine .observe .peekKind ?_
  refine .either (Q := fun _ => Nests false awaited) (fun _ => .map ident_brackets)
    (fun _ => .idle) fun default _ => ?_
  refine .either (Q := fun _ => Nests false awaited) (fun _ => .idle)
    (fun _ => .skipIf rfl) fun more _ => ?_
  refine .either (Q := fun _ => Nests false awaited) (fun _ => .map importBindings_brackets)
    (fun _ => .idle) fun bindings _ => ?_
  exact .bind (.expect rfl) fun _ _ => .bind moduleSpecifier_brackets fun _ _ => .idle

theorem importKind_brackets : importKind.Brackets place silent source awaited awaited := by
  refine .observe .peekKind <| .observe (.kindAhead 1) ?_
  split
  · exact .bind moduleSpecifier_brackets fun _ _ => .idle
  · split
    next h =>
      simp only [Bool.and_eq_true, decide_eq_true_eq, source.ahead_one] at h
      exact ident_bind h.1 fun _ => .plain_bind (h.2 ▸ rfl) <|
        .bind importTarget_brackets fun _ _ => .idle
    next => exact importClause_brackets

theorem importStatement_brackets (h : isBracket source.peek.kind = false) :
    importStatement.Brackets place silent source awaited awaited := by
  refine .spanned <| .plain_bind h <| .observe (.bind .peekKind (.bind (.kindAhead 1) (.pure _))) ?_
  refine .when (fun htype => ?_) (fun _ _ => id) fun _ =>
    .bind importKind_brackets fun _ _ => .bind endStatement_brackets fun _ _ => .idle
  simp only [Bool.and_eq_true, decide_eq_true_eq] at htype
  exact .advance fun _ => .of_plain (htype.1 ▸ rfl)

/-! ## Exports -/

theorem exportSpecifier_brackets (typeOnly : Bool) :
    (exportSpecifier typeOnly).Brackets place silent source awaited awaited := by
  refine .bind exportName_brackets fun _ _ => .bind (.skipIf rfl) fun _ _ => ?_
  exact .either (Q := fun _ => Nests false awaited) (fun _ => .map exportName_brackets)
    (fun _ => .idle) fun _ _ => .idle

theorem namedExports_brackets (typeOnly : Bool) :
    (namedExports typeOnly).Brackets place silent source awaited awaited := by
  refine .bind (specifiers_brackets fun _ _ => exportSpecifier_brackets _) fun _ _ =>
    .bind (.skipIf rfl) fun _ _ => ?_
  exact .either (Q := fun _ => Nests false awaited) (fun _ => .map moduleSpecifier_brackets)
    (fun _ => .idle) fun _ _ => .bind endStatement_brackets fun _ _ => .idle

theorem exportAll_brackets (typeOnly : Bool) (h : isBracket source.peek.kind = false) :
    (exportAll typeOnly).Brackets place silent source awaited awaited := by
  refine .plain_bind h <| .bind (.skipIf rfl) fun _ _ => ?_
  exact .either (Q := fun _ => Nests false awaited) (fun _ => .map exportName_brackets)
    (fun _ => .idle) fun _ _ => .bind (.expect rfl) fun _ _ =>
      .bind moduleSpecifier_brackets fun _ _ => .bind endStatement_brackets fun _ _ => .idle

section

variable [place.Bracketed]

theorem defaultExport_brackets : defaultExport.Brackets place silent source awaited awaited := by
  refine .observe .peekKind <| .observe (.kindAhead 1) ?_
  split
  · exact .bind (declaration_brackets true true) fun _ _ => .idle
  · split
    · exact .bind entityName_brackets fun _ _ => .bind endStatement_brackets fun _ _ => .idle
    · exact .reportHere_bind

theorem exported_brackets : exported.Brackets place silent source awaited awaited := by
  refine .observe .peekKind <| .observe (.kindAhead 1) ?_
  rw [source.ahead_one]
  split
  next h =>
    exact .plain_bind (h ▸ rfl) <| .bind entityName_brackets fun _ _ =>
      .bind endStatement_brackets fun _ _ => .idle
  next h =>
    exact .plain_bind (h ▸ rfl) <| .bind (.expect rfl) fun _ _ => .bind ident_brackets fun _ _ =>
      .bind endStatement_brackets fun _ _ => .idle
  next h => exact .plain_bind (h ▸ rfl) defaultExport_brackets
  next h => exact exportAll_brackets false (h ▸ rfl)
  next => exact namedExports_brackets false
  next h =>
    split
    · exact .plain_bind (h ▸ rfl) (namedExports_brackets true)
    · split
      next hafter => exact .plain_bind (h ▸ rfl) (exportAll_brackets true (hafter ▸ rfl))
      next => exact .map (declaration_brackets true false)
  next h => exact .map (importStatement_brackets (h ▸ rfl))
  next h => exact .map (ambientDeclaration_brackets (h ▸ rfl))
  next => exact .map (declaration_brackets true false)

/-! ## Statements -/

theorem statement_brackets (ambient : Bool) :
    (statement ambient).Brackets place silent source awaited awaited := by
  refine .observe .peekKind <| .observe (.kindAhead 1) ?_
  split
  next h => exact ambientDeclaration_brackets (h ▸ rfl)
  next h => exact .spanned <| .plain_bind (h ▸ rfl) exported_brackets
  next h =>
    split
    · exact declaration_brackets ambient false
    · exact importStatement_brackets (h ▸ rfl)
  next => exact declaration_brackets ambient false

theorem statements_brackets (ambient : Bool) (close : Kind) :
    (statements ambient close).Brackets place silent source awaited awaited := by
  refine .collect fun source => .observe .peekKind ?_
  split
  next => exact .idle
  next =>
    split
    next h => exact .plain_bind (h ▸ rfl) <| .idle
    next => exact .settle_bind (statement_brackets ambient) fun _ _ => .idle

theorem blockRest_brackets :
    blockRest.Brackets place silent source (.closeBrace :: awaited) awaited :=
  .bind (statements_brackets true _) fun _ _ => .bind .expectOrReport_closing fun _ _ => .idle

/-- What reads a goal does what is asked of the goal. -/
theorem rule_brackets (goal : Goal)
    (h : ∀ inBound, goal = .constraint inBound → source.peek.kind = .word .extends) :
    (rule goal).Brackets place silent source (goal.awaits ++ awaited) awaited := by
  cases goal with
  | type => exact conditionalType_brackets
  | operand inBound => exact operatorType_brackets inBound
  | constraint inBound => exact inferConstraint_brackets inBound (h _ rfl ▸ rfl)
  | members => exact members_brackets
  | classMembers => exact classMembers_brackets
  | block => exact blockRest_brackets

end

/-- Where nesting is too deep that is reported. -/
theorem refusal_carries (limit : Nat) (goal : Goal) {P : List Token → Prop}
    {Q : goal.Result → List Token → Prop} :
    (refusal limit goal).Carries place silent source P Q := by
  cases goal with
  | type | operand | constraint =>
      unfold refusal refusal.tooDeep
      exact .refuse
  | members | classMembers | block => exact .reportHere_bind

end Parser

/-- The brackets in all goals of the grammar nest, by induction on the levels that are left. -/
theorem Place.bracketed {limit : Nat} (place : Place)
    (hgrammar : place.grammar = DeclFile.grammar limit) : place.Bracketed := by
  induction hlevels : place.limit - place.depth using Nat.strong_induction_on
    generalizing place with
  | _ levels ih =>
      refine ⟨fun goal source awaited h hends outcome peak hevaluates hquiet => ?_⟩
      -- A goal that is refused was reported, and the others have one level less inside.
      obtain ⟨hdepth, peak, hrule⟩ | ⟨peak, hrefusal⟩ := hevaluates.parts
      · have hdeeper : place.limit - (place.depth + 1) < levels := by omega
        have : (place.inside source.pending.length).Bracketed := ih _ hdeeper _ hgrammar rfl
        rw [hgrammar] at hrule
        exact Parser.rule_brackets goal h hends hrule hquiet
      · rw [hgrammar] at hrefusal
        exact Parser.refusal_carries limit goal hends hrefusal hquiet

end DeclFile
