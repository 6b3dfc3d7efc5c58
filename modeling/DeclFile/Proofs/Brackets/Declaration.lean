import DeclFile.Parser.Declaration
import DeclFile.Proofs.Brackets.Member

/-! # Brackets in declarations

An initializer that is no literal is reported before it is skipped. The block of a namespace is
reached behind its opening brace and read with the closing one.
-/

namespace DeclFile.Parser

variable {α : Type} {place : Place} {silent : Prop} {source : TokenStream} {awaited : List Mark}

/-! ## Variables and functions -/

theorem endStatement_brackets : endStatement.Brackets place silent source awaited awaited := by
  refine .observe .peek ?_
  split
  next h => exact .plain_bind (h ▸ rfl) <| .idle
  next =>
    split
    · exact .idle
    · exact .expectOrReport rfl

theorem literalInitializer_brackets :
    literalInitializer.Brackets place True source awaited awaited := by
  refine .bind literal_brackets fun _ _ => .observe .peek ?_
  split
  any_goals exact .idle
  split
  · exact .idle
  · exact .fail trivial

theorem initializer_brackets (kind : VarKind) :
    (initializer kind).Brackets place silent source awaited awaited := by
  refine .attempt_bind literalInitializer_brackets (fun found _ => ?_) .reportHere_bind
  obtain ⟨literal, span⟩ := found
  dsimp only
  split
  · exact .idle
  · exact .report_bind

/-- A runtime declaration that is not ambient is reported. -/
theorem requireAmbient_bind {ambient : Bool} {declaration : RuntimeDeclaration}
    {next : Unit → Parser α} (h : (next ()).Brackets place silent source awaited awaited) :
    (requireAmbient ambient declaration >>= next).Brackets place silent source awaited awaited := by
  cases ambient
  · exact .reportHere_bind
  · exact .observe (.pure ()) h

section

variable [place.Bracketed]

theorem declarator_brackets (kind : VarKind) :
    (declarator kind).Brackets place silent source awaited awaited := by
  refine .spanned <| .bind ident_brackets fun _ _ => .bind (.skipIf rfl) fun _ _ =>
    .bind (typeAfter_brackets rfl) fun _ _ => .bind (.skipIf rfl) fun found _ => ?_
  exact .either (fun _ => initializer_brackets kind) (fun _ => .idle)
    fun _ _ => .idle

theorem varDecl_brackets (kind : VarKind) (h : isBracket source.peek.kind = false) :
    (varDecl kind).Brackets place silent source awaited awaited := by
  refine .plain_bind h <| .bind (.collect fun source => ?_) fun _ _ =>
    .bind endStatement_brackets fun _ _ => .idle
  refine .bind (declarator_brackets kind) fun _ _ => .bind (.skipIf rfl) fun again _ =>
    .pure fun _ => ?_
  cases again <;> exact id

theorem functionDecl_brackets (anonymous : Bool) (h : isBracket source.peek.kind = false) :
    (functionDecl anonymous).Brackets place silent source awaited awaited := by
  refine .plain_bind h <| .observe .peekKind ?_
  refine .either (fun _ => .idle) (fun _ => ident_brackets) fun name _ => ?_
  refine .bind signature_brackets fun _ _ => .observe .peekKind ?_
  exact .either (fun _ => skipBody_brackets) (fun _ => endStatement_brackets)
    fun _ _ => .idle

/-! ## Classes, interfaces, type aliases and enumerations -/

theorem heritage_brackets : heritage.Brackets place silent source awaited awaited := by
  refine .collect fun source => .optional_bind typeRef_brackets fun _ _ =>
    .bind (.skipIf rfl) fun again _ => .pure fun _ => ?_
  cases again <;> exact id

omit [place.Bracketed] in
theorem braced_brackets {body : Parser α}
    (h : ∀ source, body.Brackets place silent source (.closeBrace :: awaited)
      (.closeBrace :: awaited)) :
    (braced body).Brackets place silent source awaited awaited :=
  .bind (.expect_opening rfl) fun _ _ => .bind (h _) fun _ _ =>
    .bind .expectOrReport_closing fun _ _ => .idle

theorem classDecl_brackets (isAbstract anonymous : Bool)
    (h : isBracket source.peek.kind = false) :
    (classDecl isAbstract anonymous).Brackets place silent source awaited awaited := by
  refine .plain_bind h <| .observe .peekKind ?_
  refine .either (Q := fun _ => Nests false awaited) (fun _ => .map ident_brackets)
    (fun _ => .idle) fun name _ => ?_
  refine .bind typeParams_brackets fun _ _ => .bind (.skipIf rfl) fun _ _ => ?_
  refine .either (Q := fun _ => Nests false awaited) (fun _ => .optional typeRef_brackets)
    (fun _ => .idle) fun base _ => .bind (.skipIf rfl) fun _ _ => ?_
  refine .either (fun _ => heritage_brackets) (fun _ => .idle) fun _ _ => ?_
  exact .bind (braced_brackets fun _ =>
    (Place.Bracketed.brackets .classMembers nofun).quietly) fun _ _ => .idle

theorem interfaceDecl_brackets (h : isBracket source.peek.kind = false) :
    interfaceDecl.Brackets place silent source awaited awaited := by
  refine .plain_bind h <| .bind ident_brackets fun _ _ => .bind typeParams_brackets fun _ _ =>
    .bind (.skipIf rfl) fun _ _ => ?_
  refine .either (fun _ => heritage_brackets) (fun _ => .idle) fun _ _ => ?_
  exact .bind (braced_brackets fun _ =>
    (Place.Bracketed.brackets .members nofun).quietly) fun _ _ => .idle

theorem typeAlias_brackets (h : isBracket source.peek.kind = false) :
    typeAlias.Brackets place silent source awaited awaited :=
  .plain_bind h <| .bind ident_brackets fun _ _ => .bind typeParams_brackets fun _ _ =>
    .bind (.expect rfl) fun _ _ => .bind type_brackets fun _ _ =>
    .bind endStatement_brackets fun _ _ => .idle

omit [place.Bracketed] in
theorem enumInitializer_brackets :
    enumInitializer.Brackets place silent source awaited awaited := by
  refine .attempt_bind (.bind literal_brackets fun found _ => ?_)
    (fun _ _ => .idle) .reportHere_bind
  obtain ⟨literal, span⟩ := found
  refine .observe .peekKind ?_
  split
  · exact .idle
  · exact .fail trivial

omit [place.Bracketed] in
theorem enumMember_brackets : enumMember.Brackets place silent source awaited awaited := by
  refine .spanned <| .bind propertyName_brackets fun _ _ => .bind (.skipIf rfl) fun _ _ => ?_
  exact .either (fun _ => enumInitializer_brackets) (fun _ => .idle)
    fun _ _ => .idle

omit [place.Bracketed] in
theorem enumDecl_brackets (isConst : Bool) (h : isBracket source.peek.kind = false) :
    (enumDecl isConst).Brackets place silent source awaited awaited := by
  refine .plain_bind h <| .bind ident_brackets fun _ _ =>
    .bind (braced_brackets fun _ => commaSeparated_brackets fun _ => ?_)
      fun _ _ => .idle
  exact .bind (.settle_bind enumMember_brackets fun _ _ => .idle)
    fun _ _ => .idle

/-! ## Namespaces and modules -/

theorem block_brackets : block.Brackets place silent source awaited awaited :=
  .optional_bind (.expect_opening rfl) fun _ _ =>
    (Place.Bracketed.brackets .block nofun).quietly

theorem namespaceDecl_brackets : namespaceDecl.Brackets place silent source awaited awaited := by
  refine .bind (.spanned (M := Nests false awaited) <| .bind ident_brackets fun _ _ =>
    .bind (.collect (F := Nests false awaited) fun source => .bind (.skipIf rfl) fun _ _ => ?_)
      fun _ _ => .idle) fun _ _ => .bind block_brackets fun _ _ => .idle
  split
  · exact .bind ident_brackets fun _ _ => .idle
  · exact .idle

theorem ambientModule_brackets : ambientModule.Brackets place silent source awaited awaited := by
  refine .bind stringLit_brackets fun _ _ => .observe .peekKind ?_
  split
  · exact .bind block_brackets fun _ _ => .idle
  · exact .bind endStatement_brackets fun _ _ => .idle

/-! ## All declarations -/

theorem variableStatement_brackets (ambient : Bool) (kind : VarKind)
    (h : isBracket source.peek.kind = false) :
    (variableStatement ambient kind).Brackets place silent source awaited awaited :=
  requireAmbient_bind <| .bind (varDecl_brackets kind h) fun _ _ => .idle

theorem functionStatement_brackets (ambient async anonymous : Bool)
    (h : isBracket source.peek.kind = false)
    (hasync : async = true → isBracket source.advance.peek.kind = false) :
    (functionStatement ambient async anonymous).Brackets place silent source awaited awaited := by
  refine requireAmbient_bind ?_
  dsimp only
  split
  next hfound =>
    exact .plain_bind h <| .bind (functionDecl_brackets anonymous (hasync hfound)) fun _ _ => .idle
  next => exact .bind (functionDecl_brackets anonymous h) fun _ _ => .idle

theorem classStatement_brackets (ambient isAbstract anonymous : Bool)
    (h : isBracket source.peek.kind = false)
    (habstract : isAbstract = true → isBracket source.advance.peek.kind = false) :
    (classStatement ambient isAbstract anonymous).Brackets place silent source awaited
      awaited := by
  refine requireAmbient_bind ?_
  dsimp only
  split
  next hfound =>
    exact .plain_bind h <| .bind (classDecl_brackets isAbstract anonymous (habstract hfound))
      fun _ _ => .idle
  next => exact .bind (classDecl_brackets isAbstract anonymous h) fun _ _ => .idle

theorem declarationKind_brackets (ambient anonymous : Bool) :
    (declarationKind ambient anonymous).Brackets place silent source awaited awaited := by
  refine .observe .peekKind <| .observe (.kindAhead 1) ?_
  rw [source.ahead_one]
  dsimp only
  split
  next h => exact variableStatement_brackets ambient .var (h ▸ rfl)
  next h => exact variableStatement_brackets ambient .let (h ▸ rfl)
  next h =>
    split
    next hafter =>
      exact .plain_bind (h ▸ rfl) <| .bind (enumDecl_brackets true (hafter ▸ rfl)) fun _ _ => .idle
    next => exact variableStatement_brackets ambient .const (h ▸ rfl)
  next h => exact functionStatement_brackets ambient false anonymous (h ▸ rfl) nofun
  next h =>
    split
    next hafter =>
      exact functionStatement_brackets ambient true anonymous (h ▸ rfl) fun _ => hafter ▸ rfl
    next => exact .refuse
  next h => exact classStatement_brackets ambient false anonymous (h ▸ rfl) nofun
  next h =>
    split
    next hafter =>
      exact classStatement_brackets ambient true anonymous (h ▸ rfl) fun _ => hafter ▸ rfl
    next => exact .refuse
  next h => exact .bind (interfaceDecl_brackets (h ▸ rfl)) fun _ _ => .idle
  next h =>
    split
    · exact .bind (typeAlias_brackets (h ▸ rfl)) fun _ _ => .idle
    · exact .refuse
  next h => exact .bind (enumDecl_brackets false (h ▸ rfl)) fun _ _ => .idle
  next h => exact .plain_bind (h ▸ rfl) namespaceDecl_brackets
  next h =>
    refine .plain_bind (h ▸ rfl) ?_
    split
    · exact ambientModule_brackets
    · exact namespaceDecl_brackets
  next h =>
    split
    · exact .plain_bind (h ▸ rfl) <| .bind block_brackets fun _ _ => .idle
    · exact .refuse
  next => exact .refuse

theorem declaration_brackets (ambient anonymous : Bool) :
    (declaration ambient anonymous).Brackets place silent source awaited awaited :=
  .spanned (declarationKind_brackets ambient anonymous)

theorem ambientDeclaration_brackets (h : isBracket source.peek.kind = false) :
    ambientDeclaration.Brackets place silent source awaited awaited :=
  .spanned <| .plain_bind h (declaration_brackets true false)

end

end DeclFile.Parser
