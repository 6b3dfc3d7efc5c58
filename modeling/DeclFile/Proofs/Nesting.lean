import DeclFile.Proofs.Order
import DeclFile.Proofs.Reading.File

/-! # Spans nest

Whatever the text is, the span of each node holds the spans of its parts one after another.
Each span is the extent of the tokens that its node was read from, and tokens stand in
order, so that this only depends on how outlines lie over tokens.
-/

namespace DeclFile

/-- The span is one of the source and does not run backwards. -/
def Span.LiesIn (span : Span) (source : SourceId) : Prop :=
  span.source = source ∧ span.start.offset ≤ span.stop.offset

/-! ## Extents -/

/-- Tokens with their spans in order. -/
abbrev TokensInOrder (source : SourceId) (tokens : List Token) : Prop :=
  InOrder source (tokens.map Token.span)

namespace TokensInOrder

variable {source : SourceId} {tokens part first second : List Token}

theorem sublist (h : TokensInOrder source tokens) (hpart : part.Sublist tokens) :
    TokensInOrder source part :=
  InOrder.sublist h (hpart.map _)

/-- Some tokens lie between the first of them and the last. -/
theorem bounds (h : TokensInOrder source tokens) (htokens : tokens ≠ []) :
    ∃ first ∈ tokens, ∃ last ∈ tokens, tokens.head? = some first ∧ tokens.getLast? = some last ∧
      ∀ token ∈ tokens, first.span.start.offset ≤ token.span.start.offset ∧
        token.span.stop.offset ≤ last.span.stop.offset := by
  obtain _ | ⟨first, rest⟩ := tokens
  · exact absurd rfl htokens
  obtain rfl | ⟨middle, last, rfl⟩ := rest.eq_nil_or_concat'
  · exact ⟨first, by simp, first, by simp, rfl, rfl, by simp⟩
  · have hforward (token : Token) (hmem : token ∈ first :: (middle ++ [last])) :=
      h.forward token.span (List.mem_map_of_mem hmem)
    have hpairwise := List.pairwise_map.mp h.pairwise
    have hfirst := (List.pairwise_cons.mp hpairwise).1
    have hlast := (List.pairwise_append.mp (List.pairwise_cons.mp hpairwise).2).2.2
    have hend : (first :: (middle ++ [last])).getLast? = some last := by
      rw [← List.cons_append, List.getLast?_concat]
    refine ⟨first, by simp, last, by simp, rfl, hend, fun token htoken => ⟨?_, ?_⟩⟩
    · obtain rfl | hrest := List.mem_cons.mp htoken
      · exact Nat.le_refl _
      · exact Nat.le_trans (hforward first (by simp)) (hfirst token hrest)
    · have hbefore : token.span.stop.offset ≤ last.span.start.offset ∨ token = last := by
        obtain rfl | hrest := List.mem_cons.mp htoken
        · exact .inl (hfirst last (by simp))
        obtain hmiddle | hmem := List.mem_append.mp hrest
        · exact .inl (hlast token hmiddle last (by simp))
        · exact .inr (List.mem_singleton.mp hmem)
      obtain hbefore | rfl := hbefore
      · exact Nat.le_trans hbefore (hforward last (by simp))
      · exact Nat.le_refl _

/-- The extent of some tokens begins with the first of them and ends with the last. -/
theorem extent_spec (h : TokensInOrder source tokens) (htokens : tokens ≠ []) :
    ∃ first ∈ tokens, ∃ last ∈ tokens,
      extent source tokens = ⟨source, first.span.start, last.span.stop⟩ ∧
      ∀ token ∈ tokens, first.span.start.offset ≤ token.span.start.offset ∧
        token.span.stop.offset ≤ last.span.stop.offset := by
  obtain ⟨first, hfirst, last, hlast, hhead, hend, hbounds⟩ := h.bounds htokens
  have hforward : first.span.start.offset ≤ last.span.stop.offset :=
    Nat.le_trans (h.forward _ (List.mem_map_of_mem hfirst)) (hbounds first hfirst).2
  refine ⟨first, hfirst, last, hlast, ?_, hbounds⟩
  rw [extent_eq hhead hend, Span.between, if_pos hforward]

theorem extent_singleton {token : Token} (h : TokensInOrder source [token]) :
    extent source [token] = token.span := by
  have hmem : token.span ∈ [token].map Token.span := by simp
  have heq : extent source [token] = .between source token.span.start token.span.stop := rfl
  rw [heq, Span.between, if_pos (h.forward _ hmem), ← h.source _ hmem]

/-- Among tokens in order, a span over some of them is their extent. -/
theorem spans_eq (h : TokensInOrder source tokens) {span : Span}
    (hspan : Spans source tokens span) : span = extent source tokens := by
  cases hspan with
  | extent => rfl
  | token => exact h.extent_singleton.symm

theorem extent_liesIn (h : TokensInOrder source tokens) (htokens : tokens ≠ []) :
    (extent source tokens).LiesIn source := by
  obtain ⟨first, hfirst, last, hlast, heq, hbounds⟩ := h.extent_spec htokens
  have hforward : first.span.start.offset ≤ last.span.stop.offset :=
    Nat.le_trans (h.forward _ (List.mem_map_of_mem hfirst)) (hbounds first hfirst).2
  rw [heq]
  exact ⟨rfl, hforward⟩

/-- A span over some of the tokens is the extent of some of them. -/
theorem marks_iff (h : TokensInOrder source tokens) {span : Span} :
    Marks source tokens span ↔
      ∃ part, part ≠ [] ∧ part <:+: tokens ∧ span = extent source part := by
  constructor
  · rintro ⟨part, hinfix, hspan⟩
    exact ⟨part, hspan.ne_nil, hinfix, (h.sublist hinfix.sublist).spans_eq hspan⟩
  · rintro ⟨part, hpart, hinfix, rfl⟩
    exact ⟨part, hinfix, .extent hpart⟩

theorem marks_liesIn (h : TokensInOrder source tokens) {span : Span}
    (hspan : Marks source tokens span) : span.LiesIn source := by
  obtain ⟨part, hpart, hinfix, rfl⟩ := h.marks_iff.mp hspan
  exact (h.sublist hinfix.sublist).extent_liesIn hpart

/-- The extent of some tokens holds that of some of them. -/
theorem contains_extent (h : TokensInOrder source tokens) (hpart : part.Sublist tokens)
    (hne : part ≠ []) : (extent source tokens).contains (extent source part) = true := by
  have htokens : tokens ≠ [] := by
    rintro rfl
    exact hne (List.sublist_nil.mp hpart)
  obtain ⟨first, hfirst, last, hlast, heq, hbounds⟩ := h.extent_spec htokens
  obtain ⟨first', hfirst', last', hlast', heq', -⟩ := (h.sublist hpart).extent_spec hne
  have hstart := (hbounds first' (hpart.subset hfirst')).1
  have hstop := (hbounds last' (hpart.subset hlast')).2
  simp [heq, heq', Span.contains, hstart, hstop]

/-- What was read first ends before what was read next begins. -/
theorem precedes_extent (h : TokensInOrder source (first ++ second)) (hfirst : first ≠ [])
    (hsecond : second ≠ []) : (extent source first).Precedes (extent source second) := by
  obtain ⟨_, _, last, hlast, heq, -⟩ :=
    (h.sublist (List.sublist_append_left _ _)).extent_spec hfirst
  obtain ⟨begin, hbegin, _, _, heq', -⟩ :=
    (h.sublist (List.sublist_append_right _ _)).extent_spec hsecond
  rw [heq, heq']
  have hpairwise := List.pairwise_append.mp (List.pairwise_map.mp h.pairwise)
  exact hpairwise.2.2 last hlast begin hbegin

/-- A span over some tokens ends before anything that follows them does. -/
theorem marks_stop_le {last : Token} (h : TokensInOrder source (tokens ++ [last])) {span : Span}
    (hspan : Marks source tokens span) : span.stop.offset ≤ last.span.stop.offset := by
  have htokens := h.sublist (List.sublist_append_left tokens [last])
  obtain ⟨part, hpart, hinfix, rfl⟩ := htokens.marks_iff.mp hspan
  have hsublist : (part ++ [last]).Sublist (tokens ++ [last]) :=
    hinfix.sublist.append (List.Sublist.refl _)
  have hprecedes := (h.sublist hsublist).precedes_extent hpart (by simp)
  have hlast := h.sublist (List.sublist_append_right tokens [last])
  rw [hlast.extent_singleton] at hprecedes
  exact Nat.le_trans hprecedes (hlast.forward _ (by simp))

end TokensInOrder

/-! ## Nodes -/

/-- The span of a node lies in the source and holds those of its parts one after another. -/
structure Outline.Nests (source : SourceId) (outline : Outline) : Prop where
  liesIn : outline.span.LiesIn source
  contains : ∀ part ∈ outline.parts, outline.span.contains part.span = true
  disjoint : (outline.parts.map Outline.span).Pairwise Span.Precedes

variable {run : Run} {free : Kind → Prop} {read : List Token}
variable {outline : Outline} {forest : List Outline}

/-- The parts of a node lie over its tokens. -/
theorem Over.laid_parts (h : Over run read outline) : Laid run Gap.any read outline.parts := by
  cases h with
  | plain _ hparts => exact hparts
  | braced _ hhead hopening helements hclosing =>
      exact (Bodied.bodied hhead hopening (.closed helements hclosing)).laid
  | broken _ _ hparts => exact hparts

namespace Laid

/-- The nodes follow one another. -/
theorem pairwise {read : List Token} {forest : List Outline} (h : Laid run free read forest)
    (hread : TokensInOrder run.file read) : (forest.map Outline.span).Pairwise Span.Precedes := by
  match h with
  | .nil _ => exact .nil
  | @Laid.cons _ _ gap node rest outline outlines _ hnode hrest =>
      have hsecond : TokensInOrder run.file (node ++ rest) :=
        hread.sublist (List.sublist_append_right _ _)
      have hfirst : TokensInOrder run.file node := hsecond.sublist (List.sublist_append_left _ _)
      have hlast : TokensInOrder run.file rest := hsecond.sublist (List.sublist_append_right _ _)
      rw [List.map_cons, List.pairwise_cons, List.forall_mem_map]
      refine ⟨fun other hother => ?_, hrest.pairwise hlast⟩
      obtain ⟨part, hpart, hinfix, hspan⟩ := hlast.marks_iff.mp (hrest.marks other hother)
      rw [hfirst.spans_eq hnode.spans, hspan]
      have hboth : (node ++ part).Sublist (node ++ rest) :=
        (List.Sublist.refl _).append hinfix.sublist
      exact (hsecond.sublist hboth).precedes_extent hnode.ne_nil hpart

end Laid

theorem Over.nests (h : Over run read outline) (hread : TokensInOrder run.file read) :
    outline.Nests run.file := by
  have heq := hread.spans_eq h.spans
  refine ⟨?_, fun part hpart => ?_, h.laid_parts.pairwise hread⟩
  · rw [heq]
    exact hread.extent_liesIn h.ne_nil
  · obtain ⟨tokens, htokens, hinfix, hspan⟩ := hread.marks_iff.mp (h.laid_parts.marks part hpart)
    rw [heq, hspan]
    exact hread.contains_extent hinfix.sublist htokens

/-- All nodes inside nest as well. -/
theorem Laid.nodes_nest (h : Laid run free read forest) (hread : TokensInOrder run.file read) :
    ∀ node ∈ Outline.nodesOf forest, node.Nests run.file := by
  intro node hnode
  obtain ⟨part, hpart, hover⟩ := h.exists_infix node hnode
  exact hover.nests (hread.sublist hpart.sublist)

/-! ## Files -/

namespace Pos

theorem isBefore_of_lt {a b : Pos} (h : a.offset < b.offset) : a.isBefore b = true := by
  simp [isBefore, h]

theorem offset_le_of_isBefore {a b : Pos} (h : a.isBefore b = true) : a.offset ≤ b.offset := by
  simp only [isBefore, Bool.or_eq_true, Bool.and_eq_true, decide_eq_true_eq, beq_iff_eq] at h
  omega

/-- Neither of two positions is beyond the later one. -/
theorem offset_le_later (a b : Pos) :
    a.offset ≤ (a.later b).offset ∧ b.offset ≤ (a.later b).offset := by
  unfold later
  split
  case isTrue h => exact ⟨offset_le_of_isBefore h, Nat.le_refl _⟩
  case isFalse h => exact ⟨Nat.le_refl _, Nat.le_of_not_lt fun hlt => h (isBefore_of_lt hlt)⟩

end Pos

/-- A reference and a complaint about one have the span of the directive. -/
theorem Reference.span_ofDirective (directive : Token) :
    (∀ reference, (ofDirective directive).1 = some reference →
      reference.span = directive.span) ∧
    ∀ diagnostic ∈ (ofDirective directive).2, diagnostic.span = directive.span := by
  unfold ofDirective
  split
  · refine ⟨?_, by simp⟩
    rintro _ ⟨⟩
    rfl
  · split <;> simp [Cause.at]

section

variable (tokens : TokenStream)

theorem map_span_references_sublist :
    (((directiveOutcomes tokens).filterMap Prod.fst).map Reference.span).Sublist
      (tokens.directives.map Token.span) := by
  unfold directiveOutcomes
  induction tokens.directives with
  | nil => exact .slnil
  | cons directive directives ih =>
      rw [List.map_cons, List.filterMap_cons]
      split
      · exact .cons _ ih
      case h_2 reference heq =>
        rw [List.map_cons, (Reference.span_ofDirective directive).1 reference heq]
        exact .cons_cons _ ih

theorem span_directive_diagnostic {diagnostic : Diagnostic}
    (h : diagnostic ∈ (directiveOutcomes tokens).flatMap Prod.snd) :
    diagnostic.span ∈ tokens.directives.map Token.span := by
  obtain ⟨outcome, houtcome, hmem⟩ := List.mem_flatMap.mp h
  obtain ⟨directive, hdirective, rfl⟩ := List.mem_map.mp houtcome
  rw [(Reference.span_ofDirective directive).2 diagnostic hmem]
  exact List.mem_map_of_mem hdirective

end

/-- A module ends neither before its text nor before any of its references. -/
theorem offset_le_moduleEnd {source : SourceId} {references : List Reference} (stop : Pos)
    (h : InOrder source (references.map Reference.span)) :
    stop.offset ≤ (moduleEnd stop references).offset ∧
    ∀ reference ∈ references,
      reference.span.stop.offset ≤ (moduleEnd stop references).offset := by
  unfold moduleEnd
  obtain rfl | ⟨before, last, rfl⟩ := references.eq_nil_or_concat'
  · simp
  · rw [List.getLast?_concat]
    obtain ⟨hstop, hlast⟩ := stop.offset_le_later last.span.stop
    refine ⟨hstop, fun reference hmem => Nat.le_trans ?_ hlast⟩
    obtain hbefore | hmem := List.mem_append.mp hmem
    · have hpairwise := (List.pairwise_append.mp (List.pairwise_map.mp h.pairwise)).2.2
      refine Nat.le_trans (hpairwise reference hbefore last (by simp)) ?_
      exact h.forward last.span (by simp)
    · rw [List.mem_singleton.mp hmem]

/-- All spans of a parsed file are ones of its source, and they nest. -/
structure Parsed.Nests (source : SourceId) (parsed : Parsed) : Prop where
  ofSource : parsed.module.source = source
  module : parsed.module.span.LiesIn source
  diagnostics : ∀ diagnostic ∈ parsed.diagnostics, diagnostic.span.LiesIn source
  references : InOrder source (parsed.module.references.map Reference.span)
  contains_references : ∀ reference ∈ parsed.module.references,
    parsed.module.span.contains reference.span = true
  statements : InOrder source (parsed.module.statements.map Statement.span)
  contains_statements : ∀ statement ∈ parsed.module.statements,
    parsed.module.span.contains statement.span = true
  nodes : ∀ node ∈ Outline.nodesOf (parsed.module.statements.map Statement.outline),
    node.Nests source

/-- The spans that are read from tokens in order nest. -/
theorem parseTokens_nests {source : SourceId} {tokens : TokenStream} (limits : Limits)
    (hends : ∀ token ∈ tokens.pending, token.kind ≠ .endOfText)
    (horder : TokensInOrder source tokens.tokens)
    (hdirectives : TokensInOrder source tokens.directives) :
    (parseTokens tokens source limits).Nests source := by
  cases hexcess : excessTokens? tokens limits with
  | some count =>
      rw [parseTokens_of_excess source hexcess]
      have hpoint : (Span.point source .start).LiesIn source := ⟨rfl, Nat.le_refl _⟩
      exact ⟨rfl, hpoint, by simpa [Cause.at] using hpoint, ⟨by simp, by simp, .nil⟩, by simp,
        ⟨by simp, by simp, .nil⟩, by simp, by simp [Outline.nodesOf]⟩
  | none =>
      obtain ⟨-, hrest, hlast, hmarks, found, hfound, hlaid⟩ :=
        fileOutcome_spec ⟨False, source⟩ limits hends False.elim
      have hreferences := InOrder.sublist hdirectives (map_span_references_sublist tokens)
      have hpending := horder.sublist (List.sublist_append_left tokens.pending [tokens.last])
      have hpeek : (fileOutcome limits tokens source).rest.peek = tokens.last := by
        simp [TokenStream.peek, hrest, hlast]
      obtain ⟨hstop, hcontains⟩ := offset_le_moduleEnd tokens.last.span.stop hreferences
      have hspans : found.map Statement.span =
          (found.map Statement.outline).map Outline.span := by
        simp [Statement.span_outline]
      have hmarked (span : Span) (hmem : span ∈ found.map Statement.span) :
          Marks source tokens.pending span ∧ span.LiesIn source := by
        rw [hspans] at hmem
        obtain ⟨outline, houtline, rfl⟩ := List.mem_map.mp hmem
        have hmark := hlaid.marks outline houtline
        exact ⟨hmark, hpending.marks_liesIn hmark⟩
      rw [parseTokens_of_fitting source hexcess, hfound, hpeek]
      refine ⟨rfl, ⟨rfl, Nat.zero_le _⟩, fun diagnostic hmem => ?_, hreferences,
        fun reference hmem => ?_, ?_, fun statement hmem => ?_, hlaid.nodes_nest hpending⟩
      · obtain hmem | hmem := List.mem_append.mp hmem
        · have hspan := span_directive_diagnostic tokens hmem
          exact ⟨hdirectives.source _ hspan, hdirectives.forward _ hspan⟩
        · exact horder.marks_liesIn (hmarks diagnostic hmem)
      · have hsource := hreferences.source reference.span (List.mem_map_of_mem hmem)
        simp [Span.contains, hsource, hcontains reference hmem, Pos.start]
      · refine ⟨fun span hmem => (hmarked span hmem).2.1, fun span hmem => (hmarked span hmem).2.2,
          ?_⟩
        exact hspans ▸ hlaid.pairwise hpending
      · obtain ⟨hmark, hsource, -⟩ := hmarked statement.span (List.mem_map_of_mem hmem)
        have hbefore := Nat.le_trans (horder.marks_stop_le hmark) hstop
        simp [Span.contains, hsource, hbefore, Pos.start]

theorem textStream_pending_inOrder (text : String) (source : SourceId) :
    TokensInOrder source (textStream text source).pending :=
  TokensInOrder.sublist (textStream_inOrder text source) (List.sublist_append_left _ _)

/-- What a text is parsed to, in terms of its tokens. -/
theorem parse_eq (text : String) (source : SourceId) (limits : Limits) :
    parse text source limits = ⟨(parseTokens (textStream text source) source limits).module,
      (lex text source).errors.map LexicalError.toDiagnostic ++
        (parseTokens (textStream text source) source limits).diagnostics⟩ :=
  rfl

/-- The spans of whatever a text is parsed to nest. -/
theorem parse_spans_nest (text : String) (source : SourceId) (limits : Limits) :
    (parse text source limits).Nests source := by
  have hnests := parseTokens_nests limits (fun _ => textStream_ends text source)
    (textStream_inOrder text source) (textStream_directives_inOrder text source)
  have hlexical : ∀ diagnostic ∈ (lex text source).errors.map LexicalError.toDiagnostic,
      diagnostic.span.LiesIn source := by
    intro diagnostic hmem
    obtain ⟨error, herror, rfl⟩ := List.mem_map.mp hmem
    have hspan : error.span ∈ (lex text source).errors.map LexicalError.span :=
      List.mem_map_of_mem herror
    have herrors := inOrder_lex_errors text source
    exact ⟨herrors.source _ hspan, herrors.forward _ hspan⟩
  rw [parse_eq]
  -- Nothing more is asked of the tokens, and unfolding how they are read would not help.
  generalize parseTokens (textStream text source) source limits = parsed at hnests ⊢
  exact { hnests with diagnostics := List.forall_mem_append.mpr ⟨hlexical, hnests.diagnostics⟩ }

end DeclFile
