import DeclFile.Parser.Declaration
import DeclFile.Proofs.Shape.Member

/-! # The shape of parsed declarations

A declaration is read for `declare`, for `export`, for `export default` or for nothing in
front of it. What it may lack and whether it may run code depends on which, and is passed down
to its parser.
-/

namespace DeclFile

namespace Parser

variable {α : Type} {clean : Prop} {place : Place} {source : TokenStream}

/-! ## Variables and functions -/

/-- An initializer is kept for a constant only. -/
theorem initializer_ensures (kind : VarKind) :
    (initializer kind).Ensures clean place source fun init => init ≠ none → kind = .const := by
  refine .skip fun found rest => ?_
  cases found with
  | none => exact .skip fun _ _ => .skip fun _ _ => .pure nofun
  | some found =>
      dsimp only
      split
      next hconst => exact .pure fun _ => hconst
      next => exact .skip fun _ _ => .pure nofun

section

variable [place.Shaped clean]

theorem declarator_ensures (kind : VarKind) :
    (declarator kind).Ensures clean place source fun found =>
      AllSound clean found.occurrences ∧ (found.init ≠ none → kind = .const) := by
  refine .spanned <| .skip fun name rest => .skip fun _ _ =>
    (typeAfter_ensures _).bind fun type rest htype => .skip fun assigned rest => ?_
  refine .either (Q := fun init => init ≠ none → kind = .const)
    (fun _ => initializer_ensures kind) (fun _ => .pure nofun)
    fun init rest hinit => .pure fun span => ⟨?_, hinit⟩
  exact allSound_of_optional htype

/-- The first variable must be there, or the declaration fails. -/
theorem varDecl_ensures {isDefault : Bool} (kind : VarKind) :
    (varDecl kind).Ensures clean place source fun decl =>
      (StatementKind.var decl).Sound clean isDefault := by
  have hturn (rest : TokenStream) : Ensures clean place rest (do
      let found ← declarator kind
      return (⟨some found, ← skipIf (.mark .comma)⟩ : Turn Declarator)) fun taken =>
      (∀ found ∈ taken.result?, AllSound clean found.occurrences ∧
        (found.init ≠ none → kind = .const)) ∧ (True → taken.result? ≠ none) :=
    (declarator_ensures kind).bind fun found _ hfound => .skip fun _ _ =>
      .pure ⟨by simpa using hfound, by simp⟩
  refine .skip fun _ rest => .bind
    ((Ensures.collect fun source => (hturn source).mono fun _ => And.left).and
      (.collect_ne_nil ((hturn rest).mono fun _ => And.right)))
    fun declarators rest hdeclarators => .skip fun _ _ => .pure (.of_leaf ⟨?_, ?_⟩ ?_ rfl)
  · exact hdeclarators.2 trivial
  · exact fun declarator h => (hdeclarators.1 declarator h).2
  · exact allSound_flatMap.mpr fun declarator h => (hdeclarators.1 declarator h).1

theorem functionDecl_ensures {isDefault : Bool} (anonymous : Bool) :
    (functionDecl anonymous).Ensures clean place source fun decl =>
      (StatementKind.function decl).Sound clean isDefault := by
  refine .skip fun keyword rest => .skip fun next rest => .either (Q := fun _ => True)
    (fun _ => .any) (fun _ => .any) fun name rest _ =>
    signature_ensures.bind fun signature rest hsignature => .skip fun next rest => ?_
  have hsound : (StatementKind.function ⟨name, signature⟩).Sound clean isDefault :=
    .of_leaf trivial hsignature rfl
  split
  · exact .skip fun _ _ => .pure hsound
  · exact .skip fun _ _ => .pure hsound

/-! ## Classes, interfaces, type aliases and enumerations -/

theorem heritage_ensures :
    heritage.Ensures clean place source fun found =>
      ∀ reference ∈ found, AllSound clean reference.occurrences := by
  refine .collect fun source => .bind (.optional typeRef_ensures) fun found rest hfound => ?_
  cases found with
  | some reference => exact .skip fun _ _ => .pure hfound
  | none => exact .pure nofun

omit [place.Shaped clean] in
theorem braced_ensures {body : Parser α} {Q : α → Prop}
    (h : ∀ source, body.Ensures clean place source Q) :
    (braced body).Ensures clean place source Q :=
  .skip fun _ rest => (h rest).bind fun _ _ hfound => .skip fun _ _ => .pure hfound

/-- A class that may not be anonymous has a name. -/
theorem classDecl_ensures (isAbstract anonymous : Bool) :
    (classDecl isAbstract anonymous).Ensures clean place source fun decl =>
      (StatementKind.class decl).Sound clean anonymous := by
  refine .skip fun _ _ => .skip fun next rest => ?_
  refine .either (Q := fun name => name = none → anonymous = true)
    (fun _ => .map (Ensures.any.mono fun name _ => nofun)) (fun hunnamed => .pure fun _ => ?_)
    fun name rest hname => ?_
  · simp only [Bool.or_eq_true, Bool.not_eq_true', not_or] at hunnamed
    simpa using hunnamed.2
  refine typeParams_ensures.bind fun typeParams rest htypeParams => .skip fun extended rest => ?_
  refine .either (Q := fun base => ∀ reference ∈ base, AllSound clean reference.occurrences)
    (fun _ => .optional typeRef_ensures) (fun _ => .pure nofun) fun base rest hbase => ?_
  refine .skip fun implements rest => ?_
  refine .either (Q := fun implemented => ∀ reference ∈ implemented,
      AllSound clean (TypeRef.occurrences reference))
    (fun _ => heritage_ensures) (fun _ => .pure (by simp)) fun implemented rest himplemented => ?_
  refine (braced_ensures fun _ => Place.Shaped.ensures .classMembers).bind
    fun members rest hmembers => .pure (.of_leaf hname ?_ rfl)
  refine allSound_append.mpr ⟨allSound_append.mpr ⟨htypeParams, ?_⟩, hmembers⟩
  refine allSound_flatMap.mpr (List.forall_mem_append.mpr ⟨fun reference h => ?_, himplemented⟩)
  exact hbase reference (Option.mem_toList.mp h)

theorem interfaceDecl_ensures {isDefault : Bool} :
    interfaceDecl.Ensures clean place source fun decl =>
      (StatementKind.interface decl).Sound clean isDefault := by
  refine .skip fun _ _ => .skip fun name rest =>
    typeParams_ensures.bind fun typeParams rest htypeParams => .skip fun extended rest => ?_
  refine .either (Q := fun bases => ∀ reference ∈ bases,
      AllSound clean (TypeRef.occurrences reference))
    (fun _ => heritage_ensures) (fun _ => .pure (by simp)) fun bases rest hbases => ?_
  refine (braced_ensures fun _ => Place.Shaped.ensures .members).bind
    fun members rest hmembers => .pure (.of_leaf trivial ?_ rfl)
  refine allSound_append.mpr ⟨allSound_append.mpr ⟨htypeParams, ?_⟩, hmembers⟩
  exact allSound_flatMap.mpr hbases

theorem typeAlias_ensures {isDefault : Bool} :
    typeAlias.Ensures clean place source fun decl =>
      (StatementKind.typeAlias decl).Sound clean isDefault := by
  refine .skip fun _ _ => .skip fun name rest =>
    typeParams_ensures.bind fun typeParams rest htypeParams => .skip fun _ _ =>
    type_ensures.bind fun type rest htype => .skip fun _ _ => .pure (.of_leaf trivial ?_ rfl)
  exact allSound_append.mpr ⟨htypeParams, htype.all⟩

end

/-! ## Namespaces and modules -/

/-- A declaration that is read where `ambient` says whether `declare` or `export` is in front,
and `anonymous` whether it is `export default`. -/
structure Declares (clean : Prop) (ambient anonymous : Bool) (kind : StatementKind) : Prop where
  sound : kind.Sound clean anonymous
  isDeclaration : kind.isDeclaration = true
  ambient_of_isRuntime : clean → kind.isRuntime = true → ambient = true

section

variable [place.Shaped clean] {ambient anonymous : Bool}

theorem block_ensures :
    block.Ensures clean place source fun found =>
      ∀ statement ∈ found, statement.Sound clean false := by
  refine .skip fun opened rest => ?_
  cases opened with
  | some _ => exact Place.Shaped.ensures .block
  | none => exact .pure (by simp)

theorem namespaceDecl_ensures :
    namespaceDecl.Ensures clean place source (Declares clean ambient anonymous) := by
  refine .skip fun name rest => block_ensures.bind fun body rest hbody => .pure ?_
  exact ⟨.of_body trivial hbody rfl rfl, rfl, nofun⟩

theorem ambientModule_ensures :
    ambientModule.Ensures clean place source (Declares clean ambient anonymous) := by
  refine .skip fun name rest => .skip fun next rest => ?_
  split
  · refine block_ensures.bind fun body rest hbody => .pure ?_
    exact ⟨.of_body trivial hbody rfl rfl, rfl, nofun⟩
  · exact .skip fun _ _ => .pure ⟨.of_leaf trivial allSound_nil rfl, rfl, nofun⟩

/-! ## All declarations -/

omit [place.Shaped clean] in
/-- A declaration that runs code and is not ambient is reported. -/
theorem requireAmbient_ensures (declaration : RuntimeDeclaration) :
    (requireAmbient ambient declaration).Ensures clean place source fun _ =>
      clean → ambient = true := by
  cases ambient with
  | true => exact .pure fun _ => rfl
  | false => exact .reportHere fun hunclean hclean => absurd hclean hunclean

theorem variableStatement_ensures (kind : VarKind) :
    (variableStatement ambient kind).Ensures clean place source
      (Declares clean ambient anonymous) :=
  (requireAmbient_ensures _).bind fun _ _ hambient =>
    (varDecl_ensures kind).bind fun _ _ hdecl =>
      .pure ⟨hdecl, rfl, fun hclean _ => hambient hclean⟩

theorem functionStatement_ensures (async : Bool) :
    (functionStatement ambient async anonymous).Ensures clean place source
      (Declares clean ambient anonymous) :=
  (requireAmbient_ensures _).bind fun _ _ hambient => .when fun _ =>
    (functionDecl_ensures anonymous).bind fun _ _ hdecl =>
      .pure ⟨hdecl, rfl, fun hclean _ => hambient hclean⟩

theorem classStatement_ensures (isAbstract : Bool) :
    (classStatement ambient isAbstract anonymous).Ensures clean place source
      (Declares clean ambient anonymous) :=
  (requireAmbient_ensures _).bind fun _ _ hambient => .when fun _ =>
    (classDecl_ensures isAbstract anonymous).bind fun _ _ hdecl =>
      .pure ⟨hdecl, rfl, fun hclean _ => hambient hclean⟩

omit [place.Shaped clean] in
theorem enumDecl_ensures (isConst : Bool) :
    (enumDecl isConst).Ensures clean place source fun decl =>
      Declares clean ambient anonymous (.enum decl) :=
  Ensures.any.mono fun _ _ => ⟨.of_leaf trivial allSound_nil rfl, rfl, nofun⟩

theorem declarationKind_ensures :
    (declarationKind ambient anonymous).Ensures clean place source
      (Declares clean ambient anonymous) := by
  refine .skip fun next rest => .skip fun after rest => ?_
  dsimp only
  split
  · exact variableStatement_ensures .var
  · exact variableStatement_ensures .let
  · split
    · exact .skip fun _ _ => .bind (enumDecl_ensures true) fun _ _ hdecl => .pure hdecl
    · exact variableStatement_ensures .const
  · exact functionStatement_ensures false
  · split
    · exact functionStatement_ensures true
    · exact .refuse
  · exact classStatement_ensures false
  · split
    · exact classStatement_ensures true
    · exact .refuse
  · exact .bind interfaceDecl_ensures fun decl rest hdecl => .pure ⟨hdecl, rfl, nofun⟩
  · split
    · exact .bind typeAlias_ensures fun decl rest hdecl => .pure ⟨hdecl, rfl, nofun⟩
    · exact .refuse
  · exact .bind (enumDecl_ensures false) fun _ _ hdecl => .pure hdecl
  · exact .skip fun _ _ => namespaceDecl_ensures
  · refine .skip fun _ _ => ?_
    split
    · exact ambientModule_ensures
    · exact namespaceDecl_ensures
  · split
    · refine .skip fun _ _ => block_ensures.bind fun body rest hbody => .pure ?_
      exact ⟨.of_body trivial hbody rfl rfl, rfl, nofun⟩
    · exact .refuse
  · exact .refuse

theorem declaration_ensures :
    (declaration ambient anonymous).Ensures clean place source fun found =>
      found.Sound clean anonymous ∧ found.kind.isDeclaration = true ∧
        (clean → found.kind.isRuntime = true → ambient = true) :=
  .spanned <| declarationKind_ensures.mono fun _ hkind span =>
    ⟨hkind.sound.statement span, hkind.isDeclaration, hkind.ambient_of_isRuntime⟩

/-- What stands behind `declare` is a declaration by itself. -/
theorem ambientDeclaration_ensures :
    ambientDeclaration.Ensures clean place source fun found =>
      found.Sound clean false ∧ ∃ inner, found.kind = .ambient inner := by
  refine .spanned <| .skip fun _ _ =>
    declaration_ensures.mono fun inner hinner span => ⟨?_, inner, rfl⟩
  have hsound : (StatementKind.ambient inner).Sound clean false :=
    ⟨hinner.2.1, hinner.1.types, hinner.1.statements⟩
  exact hsound.statement span

end

end Parser

end DeclFile
