import DeclFile.Parser.Type
import DeclFile.Proofs.TypeShape

/-! # Reading names and groups without a word -/

namespace DeclFile

/-- The dotted name that the symbol spells with further segments, without its place. -/
def Symbol.entity (symbol : Symbol) (segments : List Symbol) : EntityName :=
  ⟨⟨symbol.text, default⟩, segments.map fun segment => ⟨segment.text, default⟩, default⟩

namespace Parser

variable [Layout] {reach : Reach TokenStream} {symbol : Symbol} {before after : List Symbol}

namespace Gives

theorem readIdent :
    Parser.readIdent.Gives reach (symbol :: after) after
      fun ident => ident.blank = ⟨symbol.text, default⟩ :=
  advance.bind fun token htoken => .pure (by simp [Ident.blank, htoken.text])

theorem ident (h : symbol.kind.isBindingName = true) :
    Parser.ident.Gives reach (symbol :: after) after
      fun ident => ident.blank = ⟨symbol.text, default⟩ := by
  refine peekKind.known ?_
  rw [kindAt_zero, if_pos h]
  exact readIdent

omit [Layout] in
theorem kind_ne_of_binds {word : BindingWord} {kind : Kind} (h : kind.isBindingName = false) :
    word.kind ≠ kind := by
  rintro rfl
  rw [word.binds] at h
  contradiction

/-- The segments of a dotted name, which may be any words, are read up to where no dot follows. -/
theorem moreSegments (segments : List Symbol) (hnames : ∀ segment ∈ segments, segment.kind.isName = true)
    (hafter : kindAt after 0 ≠ .mark .dot) :
    Parser.moreSegments.Gives reach
      ((segments.flatMap fun segment => [.mark .dot, segment]) ++ after) after
      fun idents => idents.map Ident.blank = segments.map fun segment => ⟨segment.text, default⟩ := by
  refine Collects.gives (Collects.each segments ?_ (by simp) ?_ [])
  · rintro segment hmem rest -
    refine peekKind.known ((kindAhead 1).known ?_)
    rw [if_pos (by simp [hnames segment hmem])]
    refine advance.bind fun _ _ => readIdent.bind fun ident hident => .pure ⟨rfl, ?_⟩
    simp [hident]
  · refine peekKind.known ((kindAhead 1).known ?_)
    rw [if_neg (by simp [hafter])]
    exact .pure ⟨rfl, rfl⟩

theorem entityName {segments : List Symbol}
    (hfirst : symbol.kind = .word .this ∨ symbol.kind.isBindingName = true)
    (hnames : ∀ segment ∈ segments, segment.kind.isName = true) (hafter : kindAt after 0 ≠ .mark .dot) :
    Parser.entityName.Gives reach
      (symbol :: ((segments.flatMap fun segment => [.mark .dot, segment]) ++ after)) after
      fun entity => entity.blank = symbol.entity segments := by
  have hmore (first : Ident) (hfirst : first.blank = ⟨symbol.text, default⟩) :
      (do return (first, ← Parser.moreSegments)).Gives reach
        ((segments.flatMap fun segment => [Symbol.mark .dot, segment]) ++ after : List Symbol) after
        fun found : Ident × List Ident => ∀ span : Span,
          (EntityName.mk found.1 found.2 span).blank = symbol.entity segments := by
    refine (moreSegments segments hnames hafter).bind fun rest hrest => .pure fun span => ?_
    simp [EntityName.blank, Symbol.entity, hfirst, hrest]
  refine spanned (peekKind.known ?_)
  by_cases hthis : symbol.kind = .word .this
  · rw [kindAt_zero, if_pos hthis]
    exact readIdent.bind hmore
  · rw [kindAt_zero, if_neg hthis]
    exact (ident (hfirst.resolve_left hthis)).bind hmore

theorem dottedName (name : DottedName) (hafter : kindAt after 0 ≠ .mark .dot) :
    Parser.entityName.Gives reach (name.write ++ after) after
      fun entity => entity.blank = name.entity := by
  have hnames : ∀ segment ∈ name.rest.map (Symbol.mk .identifier), segment.kind.isName = true :=
    List.forall_mem_map.mpr fun _ _ => rfl
  have hfirst : (Symbol.mk .identifier name.first).kind.isBindingName = true := rfl
  have hname : Parser.entityName.Gives reach _ after _ := entityName (.inr hfirst) hnames hafter
  rw [List.flatMap_map, Symbol.entity, List.map_map] at hname
  exact hname

end Gives

/-! ## Groups -/

theorem skipTurn_opening {depth : Nat} (h : opensGroup symbol.kind = true) :
    (skipTurn depth).Gives reach (symbol :: after) after (· = .more (depth + 1)) := by
  have hend : symbol.kind ≠ .endOfText := fun heq => by simp [heq, opensGroup] at h
  refine Gives.peekKind.known ?_
  simp only [kindAt_zero, hend, h, if_true, if_false]
  exact Gives.advance.bind fun _ _ => .pure rfl

theorem skipTurn_closing {depth : Nat} (h : closesGroup symbol.kind = true) :
    (skipTurn depth).Gives reach (symbol :: after) after
      (· = if depth ≤ 1 then .done () else .more (depth - 1)) := by
  have hend : symbol.kind ≠ .endOfText := fun heq => by simp [heq, closesGroup] at h
  have hopens : opensGroup symbol.kind = false := by
    unfold closesGroup at h
    split at h <;> simp_all [opensGroup]
  refine Gives.peekKind.known ?_
  simp only [kindAt_zero, hend, hopens, h, if_true, if_false, Bool.false_eq_true]
  exact Gives.advance.bind fun _ _ => .pure rfl

theorem skipTurn_single {depth : Nat} (hopens : opensGroup symbol.kind = false)
    (hcloses : closesGroup symbol.kind = false) (hend : symbol.kind ≠ .endOfText) :
    (skipTurn depth).Gives reach (symbol :: after) after
      (· = if depth = 0 then .done () else .more depth) := by
  refine Gives.peekKind.known ?_
  simp only [kindAt_zero, hend, hopens, hcloses, if_false, Bool.false_eq_true]
  exact Gives.advance.bind fun _ _ => .pure rfl

/-- Balanced symbols inside a group are skipped. -/
theorem Cycles.skipTurn {inside : List Symbol} (h : Balanced inside) (depth : Nat)
    {Q : Unit → Prop} (hafter : Cycles reach skipTurn (depth + 1) before after Q) :
    Cycles reach skipTurn (depth + 1) (inside ++ before) after Q := by
  induction h generalizing depth before with
  | nil => exact hafter
  | single hopens hcloses hend _ ih =>
      exact .next (skipTurn_single hopens hcloses hend) (ih depth hafter) (by simp)
  | @group opening closing _ rest hopening _ hclosing _ ihInside ihRest =>
      have hclosed : Cycles reach Parser.skipTurn (depth + 2) (closing :: (rest ++ before)) after Q :=
        .next ((skipTurn_closing hclosing).mono fun _ hstep => by simpa using hstep)
          (ihRest depth hafter) (by simp)
      have hopened := Cycles.next (skipTurn_opening hopening) (ihInside (depth + 1) hclosed)
        (by simp)
      simpa using hopened

/-- A group is skipped as a whole. -/
theorem Gives.skipGroup {opening closing : Symbol} {inside : List Symbol}
    (hopening : opensGroup opening.kind = true) (hinside : Balanced inside)
    (hclosing : closesGroup closing.kind = true) :
    Parser.skipGroup.Gives reach (opening :: (inside ++ closing :: after)) after
      fun _ => True := by
  have hclosed : Cycles reach skipTurn 1 (closing :: after) after fun _ => True :=
    .done ((skipTurn_closing hclosing).mono fun _ hstep => ⟨(), hstep, trivial⟩)
  exact Cycles.gives (.next (skipTurn_opening hopening) (.skipTurn hinside 0 hclosed) (by simp))

end Parser

end DeclFile
