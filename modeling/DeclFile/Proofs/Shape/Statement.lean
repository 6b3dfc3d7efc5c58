import DeclFile.Proofs.Brackets.Statement
import DeclFile.Proofs.Shape.Declaration

/-! # The shape of parsed statements

Exports take up what declarations, imports and `declare` yield, none of which is an export.
The shape of all goals follows by induction on the levels that are left.
-/

namespace DeclFile

theorem StatementKind.ne_export_of_isDeclaration {kind : StatementKind}
    (h : kind.isDeclaration = true) (exported : Export) : kind ≠ .export exported := by
  rintro rfl
  cases h

namespace Parser

variable {clean : Prop} {place : Place} {source : TokenStream}

theorem importStatement_ensures :
    importStatement.Ensures clean place source fun found =>
      found.Sound clean false ∧ ∃ decl, found.kind = .import decl := by
  refine .spanned (Ensures.any.mono fun decl _ span => ⟨?_, decl, rfl⟩)
  have hsound : (StatementKind.import decl).Sound clean false :=
    .of_leaf trivial allSound_nil rfl
  exact hsound.statement span

theorem exportAll_ensures (typeOnly : Bool) :
    (exportAll typeOnly).Ensures clean place source fun found =>
      (StatementKind.export found).Sound clean false :=
  .skip fun _ _ => .skip fun _ _ => .either (Q := fun _ => True) (fun _ => .any) (fun _ => .any)
    fun _ _ _ => .skip fun _ _ => .skip fun _ _ => .skip fun _ _ =>
      .pure (.of_leaf trivial allSound_nil rfl)

theorem namedExports_ensures (typeOnly : Bool) :
    (namedExports typeOnly).Ensures clean place source fun found =>
      (StatementKind.export found).Sound clean false :=
  .skip fun _ _ => .skip fun _ _ => .either (Q := fun _ => True) (fun _ => .any) (fun _ => .any)
    fun _ _ _ => .skip fun _ _ => .pure (.of_leaf trivial allSound_nil rfl)

/-- What is exported is no export itself. -/
theorem exportOf_sound {inner : Statement} (h : inner.Sound clean false)
    (hkind : ∀ exported, inner.kind ≠ .export exported) :
    (StatementKind.export (.declaration inner)).Sound clean false :=
  ⟨hkind, h.types, h.statements⟩

section

variable [place.Shaped clean]

/-- Only a declaration behind `export default` may be anonymous. -/
theorem defaultExport_ensures :
    defaultExport.Ensures clean place source fun found =>
      (StatementKind.export found).Sound clean false := by
  refine .skip fun next rest => .skip fun after rest => ?_
  split
  · refine .bind declaration_ensures fun inner rest hinner => .pure ?_
    exact ⟨StatementKind.ne_export_of_isDeclaration hinner.2.1, hinner.1.types,
      hinner.1.statements⟩
  split
  · exact .skip fun _ _ => .skip fun _ _ => .pure (.of_leaf trivial allSound_nil rfl)
  · exact .skip fun _ _ => .skip fun _ _ => .skip fun _ _ => .fail

theorem exportedDeclaration_ensures :
    (Export.declaration <$> declaration true false).Ensures clean place source fun found =>
      (StatementKind.export found).Sound clean false :=
  .map <| declaration_ensures.mono fun _ hinner =>
    exportOf_sound hinner.1 (StatementKind.ne_export_of_isDeclaration hinner.2.1)

theorem exported_ensures :
    exported.Ensures clean place source fun found =>
      (StatementKind.export found).Sound clean false := by
  refine .skip fun next rest => .skip fun after rest => ?_
  split
  · exact .skip fun _ _ => .skip fun _ _ => .skip fun _ _ =>
      .pure (.of_leaf trivial allSound_nil rfl)
  · exact .skip fun _ _ => .skip fun _ _ => .skip fun _ _ => .skip fun _ _ =>
      .pure (.of_leaf trivial allSound_nil rfl)
  · exact .skip fun _ _ => defaultExport_ensures
  · exact exportAll_ensures false
  · exact namedExports_ensures false
  · split
    · exact .skip fun _ _ => namedExports_ensures true
    split
    · exact .skip fun _ _ => exportAll_ensures true
    · exact exportedDeclaration_ensures
  · refine .map (importStatement_ensures.mono fun inner hinner => ?_)
    obtain ⟨hsound, decl, hkind⟩ := hinner
    exact exportOf_sound hsound fun exported => by simp [hkind]
  · refine .map (ambientDeclaration_ensures.mono fun inner hinner => ?_)
    obtain ⟨hsound, declared, hkind⟩ := hinner
    exact exportOf_sound hsound fun exported => by simp [hkind]
  · exact exportedDeclaration_ensures

/-! ## Statements -/

/-- A statement that runs code without `declare` or `export` is reported where those are
needed. -/
theorem statement_ensures (ambient : Bool) :
    (statement ambient).Ensures clean place source fun found =>
      found.Sound clean false ∧ (clean → found.kind.isRuntime = true → ambient = true) := by
  have hdeclaration (rest : TokenStream) : (declaration ambient false).Ensures clean place rest
      fun found => found.Sound clean false ∧
        (clean → found.kind.isRuntime = true → ambient = true) :=
    declaration_ensures.mono fun _ hfound => ⟨hfound.1, hfound.2.2⟩
  have himport (rest : TokenStream) : importStatement.Ensures clean place rest fun found =>
      found.Sound clean false ∧ (clean → found.kind.isRuntime = true → ambient = true) := by
    refine importStatement_ensures.mono fun found hfound => ⟨hfound.1, fun _ hruntime => ?_⟩
    obtain ⟨decl, hkind⟩ := hfound.2
    simp [hkind, StatementKind.isRuntime] at hruntime
  refine .skip fun next rest => .skip fun after rest => ?_
  split
  · refine ambientDeclaration_ensures.mono fun found hfound => ⟨hfound.1, fun _ hruntime => ?_⟩
    obtain ⟨inner, hkind⟩ := hfound.2
    simp [hkind, StatementKind.isRuntime] at hruntime
  · refine .spanned <| .skip fun _ _ => exported_ensures.mono fun found hfound span => ?_
    exact ⟨hfound.statement span, nofun⟩
  · split
    · exact hdeclaration rest
    · exact himport rest
  · exact hdeclaration rest

theorem statements_ensures (ambient : Bool) (close : Kind) :
    (statements ambient close).Ensures clean place source fun found =>
      ∀ statement ∈ found, statement.Sound clean false ∧
        (clean → statement.kind.isRuntime = true → ambient = true) := by
  refine .collect fun source => .skip fun next rest => ?_
  split
  · exact .pure (by simp)
  split
  · exact .skip fun _ _ => .pure (by simp)
  · refine .bind (statement_ensures ambient).settle fun settled rest hsettled => ?_
    cases settled with
    | done found =>
        refine .pure ?_
        rintro result ⟨⟩
        exact hsettled
    | failed progress => exact .skip fun _ _ => .pure (by simp)

theorem blockRest_ensures :
    blockRest.Ensures clean place source fun found =>
      ∀ statement ∈ found, statement.Sound clean false :=
  (statements_ensures true _).bind fun _ _ hfound => .skip fun _ _ =>
    .pure fun statement h => (hfound statement h).1

/-! ## Goals -/

/-- What reads a goal yields what is expected of the goal. -/
theorem rule_ensures [place.Bracketed] (goal : Goal) :
    (rule goal).Ensures clean place source (goal.Shape clean) := by
  cases goal with
  | type => exact conditionalType_ensures
  | operand inBound => exact operatorType_ensures inBound
  | constraint inBound => exact inferConstraint_ensures inBound
  | members => exact members_ensures
  | classMembers => exact classMembers_ensures
  | block => exact blockRest_ensures

end

/-- Where nesting is too deep there is no type, and bodies are empty. -/
theorem refusal_ensures (limit : Nat) (goal : Goal) :
    (refusal limit goal).Ensures clean place source (goal.Shape clean) := by
  cases goal with
  | type | operand | constraint =>
      unfold refusal refusal.tooDeep
      exact .refuse
  | members => exact .skip fun _ _ => .skip fun _ _ => .pure allSound_nil
  | classMembers => exact .skip fun _ _ => .skip fun _ _ => .pure allSound_nil
  | block =>
      refine .skip fun _ _ => .skip fun _ _ => .pure ?_
      exact fun _ h => absurd h List.not_mem_nil

end Parser

/-- The results of all goals of the grammar have the shape that is expected, by induction on the
levels that are left. -/
theorem Place.shaped {limit : Nat} (clean : Prop) (place : Place)
    (hgrammar : place.grammar = DeclFile.grammar limit) : place.Shaped clean := by
  induction hlevels : place.limit - place.depth using Nat.strong_induction_on
    generalizing place with
  | _ levels ih =>
      constructor
      intro goal source hends outcome peak hevaluates
      -- A goal is read by its rule one level further in, or refused at the limit.
      obtain ⟨hdepth, peak, hrule⟩ | ⟨peak, hrefusal⟩ := hevaluates.parts
      · have hdeeper : place.limit - (place.depth + 1) < levels := by omega
        have hinside : (place.inside source.pending.length).Shaped clean :=
          ih _ hdeeper _ hgrammar rfl
        have hbracketed : (place.inside source.pending.length).Bracketed :=
          Place.bracketed _ hgrammar
        rw [hgrammar] at hrule
        exact Parser.rule_ensures goal hends hrule
      · rw [hgrammar] at hrefusal
        exact Parser.refusal_ensures limit goal hends hrefusal

end DeclFile
