import DeclFile.Proofs.Brackets.Statement
import DeclFile.Proofs.Enclosure.Member

/-! # Statements in a stretch without groups

Where no group can open, all bodies and blocks are missing. A statement there stays in its
stretch, and so does what is skipped to get past it. The one exception is an initializer that is
missing: what is skipped for it may begin with any token, so the stretch must not end there.
-/

namespace DeclFile

/-- An equals sign was read, and the stretch goes on behind it. -/
def Enclosure.Equated (E : Enclosure) (home : E.Home) (tokens : List Token) : Prop :=
  E.Holds home tokens ∧ ∃ sign, sign.kind = .mark .equals ∧ E.Holds home (sign :: tokens)

/-- No initializer is skipped from a word on that begins the next statement. -/
def Enclosure.KeepsInitializers (E : Enclosure) : Prop :=
  ∀ {home : E.Home} {token : Token} {rest : List Token}, E.Equated home (token :: rest) →
    E.Permits (Cause.computedInitializer.at token.span) → token.kind ≠ .word .export

namespace Parser

open Enclosure

variable {α β : Type} {E : Enclosure} {home : E.Home} {place : Place} {source : TokenStream}

/-! ## Groups that cannot open -/

theorem expect_never (hplain : ¬E.Grouped) {mark : Mark} (hmark : opensGroup (.mark mark) = true) :
    (expect (.mark mark)).Leads E.Permits place source (E.Holds home) (E.Holds home)
      fun _ _ => False := by
  refine .observe .peekKind ?_
  split
  next heq =>
    refine .of_before fun _ hholds => .never fun _ => hplain ?_
    exact E.opening (holds_cons hholds) (.inl (heq ▸ hmark))
  next => exact .refuse fun _ => id

theorem braced_stays (hplain : ¬E.Grouped) {body : Parser α} :
    (braced body).Stays home place source :=
  .bind (expect_never hplain rfl) fun _ _ => .never id

theorem block_stays (hplain : ¬E.Grouped) : block.Stays home place source :=
  .optional_bind (expect_never hplain rfl) (fun _ _ => .never id) fun _ => .idle

/-! ## Variables and functions -/

theorem literalInitializer_leads :
    literalInitializer.Leads E.Permits place source (E.Holds home) (fun _ => True)
      fun _ => E.Holds home := by
  refine .bind literal_leads fun _ _ => .observe .peek ?_
  split
  any_goals exact .idle
  split
  · exact .idle
  · exact .fail fun _ => trivial

theorem skipIf_equals :
    (skipIf (.mark .equals)).Leads E.Permits place source (E.Holds home) (E.Holds home)
      fun found => if found then E.Equated home else E.Holds home := by
  refine .observe .peekKind ?_
  split
  next heq =>
    refine .advance_bind (M := E.Equated home) (fun hholds => ?_) (.pure id)
    exact ⟨holds_advance hholds (heq ▸ rfl), source.peek, heq, holds_cons hholds⟩
  next => exact .pure id

/-- What is no literal is skipped, and it is not missing. -/
theorem initializer_leads (hkeeps : E.KeepsInitializers) (kind : VarKind) :
    (initializer kind).Leads E.Permits place source (E.Equated home) (E.Holds home)
      fun _ => E.Holds home := by
  refine .attempt_bind (literalInitializer_leads.pre And.left) (fun found _ => ?_) ?_
  · obtain ⟨literal, span⟩ := found
    dsimp only
    split
    · exact .idle
    · exact .report_bind fun _ => .idle
  · refine .of_before fun _ hequated => .reportHere_bind fun hpermits => ?_
    obtain ⟨hholds, hsign⟩ := hequated
    have hnext : E.Equated home (source.peek :: source.advance.pending) := by
      rw [← (pending_eq hholds).1]
      exact ⟨hholds, hsign⟩
    refine .bind ((skipInitializer_stays (.inr ?_)).pre And.left) fun _ _ => .idle
    exact hkeeps hnext hpermits

section

variable [place.Encloses E]

theorem declarator_stays (hkeeps : E.KeepsInitializers) (kind : VarKind) :
    (declarator kind).Stays home place source := by
  refine .spanned <| .bind ident_stays fun _ _ => .bind (.skipIf rfl) fun _ _ =>
    .bind (typeAfter_stays rfl) fun _ _ => .bind skipIf_equals fun found _ => ?_
  refine .either (Q := fun _ => E.Holds home) (fun hfound => ?_) (fun hfound => ?_)
    fun _ _ => .idle
  · simpa only [hfound, if_true] using initializer_leads hkeeps kind
  · simpa only [hfound, if_false] using .idle

theorem varDecl_stays (hkeeps : E.KeepsInitializers) (kind : VarKind)
    (h : source.peek.kind.isCommon = true) : (varDecl kind).Stays home place source := by
  refine .common_bind h <| .bind (.collect_evenly fun source => ?_) fun _ _ =>
    .bind endStatement_stays fun _ _ => .idle
  exact .bind (declarator_stays hkeeps kind) fun _ _ => .bind (.skipIf rfl) fun _ _ => .idle

theorem functionDecl_stays (anonymous : Bool) (h : source.peek.kind.isCommon = true) :
    (functionDecl anonymous).Stays home place source := by
  refine .common_bind h <| .observe .peekKind ?_
  refine .either (Q := fun _ => E.Holds home) (fun _ => .idle) (fun _ => ident_stays)
    fun name _ => ?_
  refine .bind signature_stays fun _ _ => .observe .peekKind ?_
  exact .either (Q := fun _ => E.Holds home) (fun _ => skipBody_stays)
    (fun _ => endStatement_stays) fun _ _ => .idle

/-! ## Classes, interfaces, type aliases and enumerations -/

theorem heritage_stays : heritage.Stays home place source :=
  .collect_evenly fun _ => .optional_bind typeRef_stays
    (fun _ _ => .bind (.skipIf rfl) fun _ _ => .idle) fun _ => .idle

theorem classDecl_stays (hplain : ¬E.Grouped) (isAbstract anonymous : Bool)
    (h : source.peek.kind.isCommon = true) :
    (classDecl isAbstract anonymous).Stays home place source := by
  refine .common_bind h <| .observe .peekKind ?_
  refine .either (Q := fun _ => E.Holds home) (fun _ => .map ident_stays) (fun _ => .idle)
    fun name _ => ?_
  refine .bind typeParams_stays fun _ _ => .bind (.skipIf rfl) fun _ _ => ?_
  refine .either (Q := fun _ => E.Holds home) (fun _ => .optional typeRef_stays)
    (fun _ => .idle) fun base _ => .bind (.skipIf rfl) fun _ _ => ?_
  refine .either (Q := fun _ => E.Holds home) (fun _ => heritage_stays) (fun _ => .idle)
    fun _ _ => ?_
  exact .bind (braced_stays hplain) fun _ _ => .idle

theorem interfaceDecl_stays (hplain : ¬E.Grouped) (h : source.peek.kind.isCommon = true) :
    interfaceDecl.Stays home place source := by
  refine .common_bind h <| .bind ident_stays fun _ _ => .bind typeParams_stays fun _ _ =>
    .bind (.skipIf rfl) fun _ _ => ?_
  refine .either (Q := fun _ => E.Holds home) (fun _ => heritage_stays) (fun _ => .idle)
    fun _ _ => ?_
  exact .bind (braced_stays hplain) fun _ _ => .idle

theorem typeAlias_stays (h : source.peek.kind.isCommon = true) :
    typeAlias.Stays home place source :=
  .common_bind h <| .bind ident_stays fun _ _ => .bind typeParams_stays fun _ _ =>
    .bind (.expect rfl) fun _ _ => .bind type_stays fun _ _ =>
    .bind endStatement_stays fun _ _ => .idle

omit [place.Encloses E] in
theorem enumDecl_stays (hplain : ¬E.Grouped) (isConst : Bool)
    (h : source.peek.kind.isCommon = true) : (enumDecl isConst).Stays home place source :=
  .common_bind h <| .bind ident_stays fun _ _ => .bind (braced_stays hplain) fun _ _ => .idle

/-! ## Namespaces and modules -/

omit [place.Encloses E] in
theorem namespaceDecl_stays (hplain : ¬E.Grouped) : namespaceDecl.Stays home place source := by
  refine .bind (.spanned <| .bind ident_stays fun _ _ =>
    .bind (.collect_evenly fun source => .bind (.skipIf rfl) fun _ _ => ?_)
      fun _ _ => .idle) fun _ _ => .bind (block_stays hplain) fun _ _ => .idle
  split
  · exact .bind ident_stays fun _ _ => .idle
  · exact .idle

omit [place.Encloses E] in
theorem ambientModule_stays (hplain : ¬E.Grouped) : ambientModule.Stays home place source := by
  refine .bind stringLit_stays fun _ _ => .observe .peekKind ?_
  split
  · exact .bind (block_stays hplain) fun _ _ => .idle
  · exact .bind endStatement_stays fun _ _ => .idle

/-! ## All declarations -/

omit [place.Encloses E] in
/-- Reporting that a declaration is not ambient reads nothing. -/
theorem Leads.requireAmbient_bind {ambient : Bool} {declaration : RuntimeDeclaration}
    {next : Unit → Parser β} {P F : List Token → Prop} {R : β → List Token → Prop}
    (h : (next ()).Leads E.Permits place source P F R) :
    (requireAmbient ambient declaration >>= next).Leads E.Permits place source P F R := by
  cases ambient
  · exact .reportHere_bind fun _ => h
  · exact .observe (.pure ()) h

theorem variableStatement_stays (hkeeps : E.KeepsInitializers) (ambient : Bool) (kind : VarKind)
    (h : source.peek.kind.isCommon = true) :
    (variableStatement ambient kind).Stays home place source :=
  .requireAmbient_bind <| .bind (varDecl_stays hkeeps kind h) fun _ _ => .idle

theorem functionStatement_stays (ambient async anonymous : Bool)
    (h : source.peek.kind.isCommon = true)
    (hasync : async = true → source.advance.peek.kind.isCommon = true) :
    (functionStatement ambient async anonymous).Stays home place source := by
  refine .requireAmbient_bind ?_
  dsimp only
  split
  next hfound =>
    exact .common_bind h <| .bind (functionDecl_stays anonymous (hasync hfound)) fun _ _ => .idle
  next => exact .bind (functionDecl_stays anonymous h) fun _ _ => .idle

theorem classStatement_stays (hplain : ¬E.Grouped) (ambient isAbstract anonymous : Bool)
    (h : source.peek.kind.isCommon = true)
    (habstract : isAbstract = true → source.advance.peek.kind.isCommon = true) :
    (classStatement ambient isAbstract anonymous).Stays home place source := by
  refine .requireAmbient_bind ?_
  dsimp only
  split
  next hfound =>
    exact .common_bind h <| .bind (classDecl_stays hplain isAbstract anonymous (habstract hfound))
      fun _ _ => .idle
  next => exact .bind (classDecl_stays hplain isAbstract anonymous h) fun _ _ => .idle

theorem declarationKind_stays (hplain : ¬E.Grouped) (hkeeps : E.KeepsInitializers)
    (ambient anonymous : Bool) : (declarationKind ambient anonymous).Stays home place source := by
  have hunknown : (refuse .missingDeclaration : Parser StatementKind).Stays home place source :=
    .refuse fun _ => id
  refine .observe .peekKind <| .observe (.kindAhead 1) ?_
  rw [source.ahead_one]
  dsimp only
  split
  next h => exact variableStatement_stays hkeeps ambient .var (h ▸ rfl)
  next h => exact variableStatement_stays hkeeps ambient .let (h ▸ rfl)
  next h =>
    split
    next hafter =>
      exact .common_bind (h ▸ rfl) <| .bind (enumDecl_stays hplain true (hafter ▸ rfl))
        fun _ _ => .idle
    next => exact variableStatement_stays hkeeps ambient .const (h ▸ rfl)
  next h => exact functionStatement_stays ambient false anonymous (h ▸ rfl) nofun
  next h =>
    split
    next hafter =>
      exact functionStatement_stays ambient true anonymous (h ▸ rfl) fun _ => hafter ▸ rfl
    next => exact hunknown
  next h => exact classStatement_stays hplain ambient false anonymous (h ▸ rfl) nofun
  next h =>
    split
    next hafter =>
      exact classStatement_stays hplain ambient true anonymous (h ▸ rfl) fun _ => hafter ▸ rfl
    next => exact hunknown
  next h => exact .bind (interfaceDecl_stays hplain (h ▸ rfl)) fun _ _ => .idle
  next h =>
    split
    · exact .bind (typeAlias_stays (h ▸ rfl)) fun _ _ => .idle
    · exact hunknown
  next h => exact .bind (enumDecl_stays hplain false (h ▸ rfl)) fun _ _ => .idle
  next h => exact .common_bind (h ▸ rfl) (namespaceDecl_stays hplain)
  next h =>
    refine .common_bind (h ▸ rfl) ?_
    split
    · exact ambientModule_stays hplain
    · exact namespaceDecl_stays hplain
  next h =>
    split
    · exact .common_bind (h ▸ rfl) <| .bind (block_stays hplain) fun _ _ => .idle
    · exact hunknown
  next => exact hunknown

theorem declaration_stays (hplain : ¬E.Grouped) (hkeeps : E.KeepsInitializers)
    (ambient anonymous : Bool) : (declaration ambient anonymous).Stays home place source :=
  .spanned (declarationKind_stays hplain hkeeps ambient anonymous)

theorem ambientDeclaration_stays (hplain : ¬E.Grouped) (hkeeps : E.KeepsInitializers)
    (h : source.peek.kind.isCommon = true) : ambientDeclaration.Stays home place source :=
  .spanned <| .common_bind h (declaration_stays hplain hkeeps true false)

/-! ## Imports -/

omit [place.Encloses E] in
/-- Attributes can only follow a specifier where a brace opens. -/
theorem skipImportAttributes_stays : skipImportAttributes.Stays home place source := by
  refine .observe .peek <| .observe (.kindAhead 1) ?_
  rw [source.ahead_one]
  split
  next h =>
    simp only [Bool.and_eq_true, decide_eq_true_eq] at h
    exact .common_bind (h.1.1.1 ▸ rfl) (skipGroup_stays (.inl (h.1.2 ▸ rfl)))
  next => exact .idle

omit [place.Encloses E] in
theorem moduleSpecifier_stays : moduleSpecifier.Stays home place source :=
  .bind stringLit_stays fun _ _ => .bind skipImportAttributes_stays fun _ _ => .idle

omit [place.Encloses E] in
theorem importBindings_stays (hplain : ¬E.Grouped) : importBindings.Stays home place source := by
  refine .bind (.skipIf rfl) fun _ _ => ?_
  split
  · exact .bind (.expect rfl) fun _ _ => .bind ident_stays fun _ _ => .idle
  · refine .bind (Q := fun _ _ => False) ?_ fun _ _ => .never id
    exact .bind (expect_never hplain rfl) fun _ _ => .never id

omit [place.Encloses E] in
theorem importTarget_stays : importTarget.Stays home place source := by
  refine .observe .peek <| .observe (.kindAhead 1) ?_
  rw [source.ahead_one]
  split
  next h =>
    simp only [Bool.and_eq_true, decide_eq_true_eq] at h
    exact .common_bind (h.1.1 ▸ rfl) <| .common_bind (h.2 ▸ rfl) <|
      .bind stringLit_stays fun _ _ => .bind (.expect rfl) fun _ _ => .idle
  next => exact .bind entityName_stays fun _ _ => .idle

omit [place.Encloses E] in
theorem importClause_stays (hplain : ¬E.Grouped) : importClause.Stays home place source := by
  refine .observe .peekKind ?_
  refine .either (Q := fun _ => E.Holds home) (fun _ => .map ident_stays)
    (fun _ => .idle) fun default _ => ?_
  refine .either (Q := fun _ => E.Holds home) (fun _ => .idle)
    (fun _ => .skipIf rfl) fun more _ => ?_
  refine .either (Q := fun _ => E.Holds home) (fun _ => .map (importBindings_stays hplain))
    (fun _ => .idle) fun bindings _ => ?_
  exact .bind (.expect rfl) fun _ _ => .bind moduleSpecifier_stays fun _ _ => .idle

omit [place.Encloses E] in
theorem importKind_stays (hplain : ¬E.Grouped) : importKind.Stays home place source := by
  refine .observe .peekKind <| .observe (.kindAhead 1) ?_
  rw [source.ahead_one]
  split
  · exact .bind moduleSpecifier_stays fun _ _ => .idle
  · split
    next h =>
      simp only [Bool.and_eq_true, decide_eq_true_eq] at h
      refine .ident_bind h.1 (fun hholds => ?_) <| .common_bind (h.2 ▸ rfl) <|
        .bind importTarget_stays fun _ _ => .idle
      exact holds_advance hholds (Kind.isCommon_of_isBindingName h.1)
    next => exact importClause_stays hplain

omit [place.Encloses E] in
theorem importStatement_stays (hplain : ¬E.Grouped) (h : source.peek.kind.isCommon = true) :
    importStatement.Stays home place source := by
  refine .spanned <| .common_bind h <|
    .observe (.bind .peekKind (.bind (.kindAhead 1) (.pure _))) ?_
  refine .when (M := E.Holds home) (fun htype => ?_) (fun _ => id) fun _ =>
    .bind (importKind_stays hplain) fun _ _ => .bind endStatement_stays fun _ _ => .idle
  simp only [Bool.and_eq_true, decide_eq_true_eq] at htype
  exact .advance fun hholds => holds_advance hholds (htype.1 ▸ rfl)

/-! ## Statements -/

theorem statement_stays (hplain : ¬E.Grouped) (hkeeps : E.KeepsInitializers) (ambient : Bool)
    (h : source.peek.kind ≠ .word .export) :
    (statement ambient).Stays home place source := by
  refine .observe .peekKind <| .observe (.kindAhead 1) ?_
  split
  next hdeclare => exact ambientDeclaration_stays hplain hkeeps (hdeclare ▸ rfl)
  next hexport => exact absurd hexport h
  next himport =>
    split
    · exact declaration_stays hplain hkeeps ambient false
    · exact importStatement_stays hplain (himport ▸ rfl)
  next => exact declaration_stays hplain hkeeps ambient false

omit [place.Encloses E] in
/-- Where nothing was read of a broken statement, the next token is skipped by itself. -/
theorem recoverStatement_stays {F : List Token → Prop} (progress : Bool)
    (h : progress = false → source.peek.kind.isCommon = true) :
    (recoverStatement progress).Leads E.Permits place source (E.Holds home) F
      fun _ => E.Holds home := by
  refine .observe .peekKind ?_
  split
  next => exact skipToStatement_stays
  next hstuck =>
    have hcommon := h (by simpa using (not_or.mp (mt Bool.or_eq_true_iff.mpr hstuck)).1)
    refine .common_bind hcommon ?_
    split
    next => exact .idle
    next hopen => simp [hopen, Kind.isCommon] at hcommon
    next => exact skipToStatement_stays

/-- A turn that begins in the stretch, at no brace and not at the next statement, ends there. -/
theorem statementTurn_stays (hplain : ¬E.Grouped) (hkeeps : E.KeepsInitializers) (ambient : Bool)
    {F : List Token → Prop} (h : source.peek.kind.isCommon = true) :
    (statementTurn ambient .endOfText).Leads E.Permits place source (E.Holds home) F
      fun taken tokens => taken.again = true ∧ E.Holds home tokens := by
  refine .of_before fun _ hholds => .observe .peekKind ?_
  rw [if_neg (by simp [(pending_eq hholds).2])]
  split
  next => exact .common_bind h (.pure fun hrest => ⟨rfl, hrest⟩)
  next =>
    have hexport : source.peek.kind ≠ .word .export := by
      intro heq
      simp [heq, Kind.isCommon] at h
    refine .settle_bind (statement_stays hplain hkeeps ambient hexport)
      (fun _ _ => .pure fun hrest => ⟨rfl, hrest⟩) fun progress rest => ?_
    refine .of_before fun _ hsettled => ?_
    obtain ⟨hrest, hsame⟩ := hsettled
    refine .bind ((recoverStatement_stays progress fun hprogress => ?_).pre And.left)
      fun _ _ => .pure fun hleft => ⟨rfl, hleft⟩
    have heq := hsame hprogress
    rw [(pending_eq hrest).1, (pending_eq hholds).1] at heq
    rw [(List.cons.inj heq).1]
    exact h

end

end Parser

end DeclFile
