import DeclFile.Proofs.Nesting

/-! # Nothing is lost without a word

If nothing is reported, then nothing was passed over. Each token belongs to exactly one
statement, and within the braces of a body to exactly one element of it; only separators
stand outside. In runs without a diagnostic the gaps that outlines leave are known, and
tokens in order lie in no more than one of several spans that follow one another.
-/

namespace DeclFile

/-- Tokens in order, of which none is empty. -/
structure SolidTokens (source : SourceId) (tokens : List Token) : Prop where
  inOrder : TokensInOrder source tokens
  nonempty : ∀ token ∈ tokens, token.span.start.offset < token.span.stop.offset

namespace SolidTokens

variable {source : SourceId} {tokens part first second : List Token} {token : Token}

theorem sublist (h : SolidTokens source tokens) (hpart : part.Sublist tokens) :
    SolidTokens source part where
  inOrder := h.inOrder.sublist hpart
  nonempty token htoken := h.nonempty token (hpart.subset htoken)

theorem contains_of_mem (h : SolidTokens source tokens) (htoken : token ∈ tokens) :
    (extent source tokens).contains token.span = true := by
  have hpart := List.singleton_sublist.mpr htoken
  rw [← (h.inOrder.sublist hpart).extent_singleton]
  exact h.inOrder.contains_extent hpart (by simp)

/-- What was read next does not hold a token of what was read first. -/
theorem not_contains_first (h : SolidTokens source (first ++ second)) (hsecond : second ≠ [])
    (htoken : token ∈ first) : (extent source second).contains token.span = false := by
  have hpair : ([token] ++ second).Sublist (first ++ second) :=
    (List.singleton_sublist.mpr htoken).append (List.Sublist.refl _)
  have hprecedes := (h.inOrder.sublist hpair).precedes_extent (by simp) hsecond
  have hnonempty := h.nonempty token (List.mem_append_left _ htoken)
  rw [((h.inOrder.sublist hpair).sublist (List.sublist_append_left _ _)).extent_singleton,
    Span.Precedes] at hprecedes
  simp only [Span.contains, Bool.and_eq_false_iff, decide_eq_false_iff_not]
  omega

/-- What was read first does not hold a token of what was read next. -/
theorem not_contains_second (h : SolidTokens source (first ++ second)) (hfirst : first ≠ [])
    (htoken : token ∈ second) : (extent source first).contains token.span = false := by
  have hpair : (first ++ [token]).Sublist (first ++ second) :=
    (List.Sublist.refl _).append (List.singleton_sublist.mpr htoken)
  have hprecedes := (h.inOrder.sublist hpair).precedes_extent hfirst (by simp)
  have hnonempty := h.nonempty token (List.mem_append_right _ htoken)
  rw [((h.inOrder.sublist hpair).sublist (List.sublist_append_right _ _)).extent_singleton,
    Span.Precedes] at hprecedes
  simp only [Span.contains, Bool.and_eq_false_iff, decide_eq_false_iff_not]
  omega

/-- The tokens in an extent are the ones that it is the extent of. -/
theorem filter_extent (h : SolidTokens source tokens) (hpart : part <:+: tokens) (hne : part ≠ []) :
    tokens.filter (fun token => (extent source part).contains token.span) = part := by
  obtain ⟨before, after, rfl⟩ := hpart
  have hfirst : SolidTokens source (before ++ part) := h.sublist (List.sublist_append_left _ _)
  have hsecond : SolidTokens source (part ++ after) := by
    rw [List.append_assoc] at h
    exact h.sublist (List.sublist_append_right _ _)
  have hinside : SolidTokens source part := hsecond.sublist (List.sublist_append_left _ _)
  rw [List.filter_append, List.filter_append,
    List.filter_eq_nil_iff.mpr fun token htoken => by simp [hfirst.not_contains_first hne htoken],
    List.filter_eq_self.mpr fun token htoken => hinside.contains_of_mem htoken,
    List.filter_eq_nil_iff.mpr fun token htoken => by simp [hsecond.not_contains_second hne htoken],
    List.nil_append, List.append_nil]

end SolidTokens

/-- Of these nodes exactly one holds the token. -/
def HeldOnce (outlines : List Outline) (token : Token) : Prop :=
  outlines.countP (fun outline => outline.span.contains token.span) = 1

section

variable {free : Kind → Prop} {read : List Token} {source : SourceId}
variable {outline : Outline} {forest : List Outline}

/-- Of nodes that lie over tokens without leaving out any, each token is in exactly one. The
induction is on the nodes: a token is in the gap in front of the first one, in its stretch,
or after it. -/
theorem Laid.heldOnce {read : List Token} {forest : List Outline}
    (h : Laid ⟨True, source⟩ free read forest) (hread : SolidTokens source read) {token : Token}
    (htoken : token ∈ read) (hkind : ¬free token.kind) : HeldOnce forest token := by
  match h with
  | .nil hgap => exact absurd (hgap trivial token htoken) hkind
  | @Laid.cons _ _ gap node rest outline outlines hgap hnode hrest =>
      have hboth : SolidTokens source (node ++ rest) :=
        hread.sublist (List.sublist_append_right _ _)
      have hnodes := hboth.sublist (List.sublist_append_left _ _)
      have hothers := hboth.sublist (List.sublist_append_right _ _)
      rw [HeldOnce, List.countP_cons, hnodes.inOrder.spans_eq hnode.spans]
      obtain hmem | hmem := List.mem_append.mp htoken
      · exact absurd (hgap trivial token hmem) hkind
      obtain hmem | hmem := List.mem_append.mp hmem
      · have hfirst : (extent source node).contains token.span = true :=
          hnodes.contains_of_mem hmem
        have hnone : outlines.countP (fun other => other.span.contains token.span) = 0 := by
          refine List.countP_eq_zero.mpr fun other hother => ?_
          obtain ⟨part, hpart, hinfix, hspan⟩ :=
            hothers.inOrder.marks_iff.mp (hrest.marks other hother)
          have hpair : SolidTokens source (node ++ part) :=
            hboth.sublist ((List.Sublist.refl _).append hinfix.sublist)
          simp [hspan, hpair.not_contains_first hpart hmem]
        simp [hfirst, hnone]
      · have hfirst := hboth.not_contains_second hnode.ne_nil hmem
        have hheld := hrest.heldOnce hothers hmem hkind
        rw [HeldOnce] at hheld
        simp [hfirst, hheld]

/-- A node with a body ends, among these tokens, with braces in which each token but the
separators is in exactly one element. Only in nodes of the head do braces open before. -/
def Outline.Covers (tokens : List Token) : Outline → Prop
  | .plain _ _ => True
  | .braced span separators head elements =>
      ∃ before opening inside closing,
        tokens.filter (fun token => span.contains token.span) =
          before ++ opening :: (inside ++ [closing]) ∧
        opening.kind = .mark .openBrace ∧ closing.kind = .mark .closeBrace ∧
        (∀ token ∈ before, token.kind = .mark .openBrace → HeldOnce head token) ∧
        ∀ token ∈ inside, (∀ mark ∈ separators, token.kind ≠ .mark mark) →
          HeldOnce elements token

/-- Nodes over some of the tokens of a text cover them. -/
theorem Over.covers {text : List Token} (h : Over ⟨True, source⟩ read outline)
    (htext : SolidTokens source text) (hread : read <:+: text) : outline.Covers text := by
  have hsolid : SolidTokens source read := htext.sublist hread.sublist
  match h with
  | .plain _ _ => trivial
  | .broken hnoisy _ _ => exact absurd trivial hnoisy
  | @Over.braced _ before inside opening closing span separators head elements hspan hhead hopening
      helements hclosing =>
      have hfilter := htext.filter_extent hread (by simp)
      rw [← hsolid.inOrder.spans_eq hspan] at hfilter
      refine ⟨before, opening, inside, closing, hfilter, hopening, hclosing,
        fun token htoken hkind => ?_, fun token htoken hkind => ?_⟩
      · refine hhead.heldOnce (hsolid.sublist (List.sublist_append_left _ _)) htoken ?_
        exact fun hfree => hfree hkind
      · have hinside : inside.Sublist (before ++ opening :: (inside ++ [closing])) :=
          ((List.sublist_append_left _ _).cons _).trans (List.sublist_append_right _ _)
        refine helements.heldOnce (hsolid.sublist hinside) htoken ?_
        rintro ⟨mark, hmark, heq⟩
        exact hkind mark hmark heq

end

theorem solid_textStream (text : String) (source : SourceId) :
    SolidTokens source (textStream text source).pending where
  inOrder := textStream_pending_inOrder text source
  nonempty _ htoken := textStream_nonempty text source htoken

/-- If parsing a text reports nothing, then each of its tokens except semicolons is in
exactly one statement, and bodies cover what is between their braces in the same way. -/
theorem parse_covers (text : String) (source : SourceId) (limits : Limits)
    (hclean : (parse text source limits).diagnostics = []) :
    (∀ token ∈ (textStream text source).pending, token.kind ≠ .mark .semicolon →
      (parse text source limits).module.statements.countP
        (fun statement => statement.span.contains token.span) = 1) ∧
    ∀ node ∈ Outline.nodesOf ((parse text source limits).module.statements.map Statement.outline),
      node.Covers (textStream text source).pending := by
  have hsolid := solid_textStream text source
  rw [parse_eq] at hclean ⊢
  have hparsed := (List.append_eq_nil_iff.mp hclean).2
  cases hexcess : excessTokens? (textStream text source) limits with
  | some count =>
      rw [parseTokens_of_excess source hexcess] at hparsed
      exact absurd hparsed (by simp)
  | none =>
      rw [parseTokens_of_fitting source hexcess] at hparsed ⊢
      obtain ⟨-, -, -, -, found, hfound, hlaid⟩ := fileOutcome_spec ⟨True, source⟩ limits
        (fun _ => textStream_ends text source) fun _ => (List.append_eq_nil_iff.mp hparsed).2
      simp only [hfound, Option.getD_some]
      refine ⟨fun token htoken hkind => ?_, fun node hnode => ?_⟩
      · have hheld := hlaid.heldOnce hsolid htoken (by simpa [Gap.body] using hkind)
        simpa [HeldOnce, List.countP_map, Function.comp_def, Statement.span_outline] using hheld
      · obtain ⟨part, hpart, hover⟩ := hlaid.exists_infix node hnode
        exact hover.covers hsolid hpart

/-- The text `namespace N { interface I { a: { b: C }; d(): E } };` with bodies in bodies. -/
def bodiesInBodies : String :=
  "namespace N \x7b interface I \x7b a: \x7b b: C \x7d; d(): E \x7d \x7d;"

theorem parse_covers_bodies :
    (parse bodiesInBodies ⟨0⟩ default).diagnostics = [] ∧
    (∀ token ∈ (textStream bodiesInBodies ⟨0⟩).pending, token.kind ≠ .mark .semicolon →
      (parse bodiesInBodies ⟨0⟩ default).module.statements.countP
        (fun statement => statement.span.contains token.span) = 1) ∧
    ∀ node ∈ Outline.nodesOf
        ((parse bodiesInBodies ⟨0⟩ default).module.statements.map Statement.outline),
      node.Covers (textStream bodiesInBodies ⟨0⟩).pending :=
  ⟨by decide +kernel, parse_covers bodiesInBodies ⟨0⟩ default (by decide +kernel)⟩

end DeclFile
