import DeclFile.Proofs.Nesting
import DeclFile.Proofs.Positions
import DeclFile.Report

/-! # Diagnostics fit their text

A report shows the lines around a diagnostic, for which the span of the diagnostic must lie
between characters of the text. Spans come from tokens, from runs of tokens, from lexical
errors and from the start of the text, and in all of them both ends were reached by moving
through the text.
-/

namespace DeclFile

/-! ## Spans that fit -/

/-- The span lies in a text, from one place between its characters to a later one. -/
structure Span.FitsIn (span : Span) (text : String) (source : SourceId) : Prop where
  liesIn : span.LiesIn source
  start : span.start.IsTrueIn text
  stop : span.stop.IsTrueIn text

section

variable {text : String} {source : SourceId} {span : Span}

/-- Spans in order that were met while a text was cut into tokens fit the text. -/
theorem fitsIn_of_inOrder {spans : List Span} (horder : InOrder source spans)
    (hspans : spans ⊆ (lex text source).tokens.map Token.span ++
      (lex text source).errors.map LexicalError.span) (h : span ∈ spans) :
    span.FitsIn text source := by
  have hpositions : ∀ pos ∈ [span.start, span.stop], pos ∈ (lex text source).positions := by
    intro pos hpos
    exact List.mem_flatMap.mpr ⟨span, hspans h, hpos⟩
  constructor
  · exact ⟨horder.source span h, horder.forward span h⟩
  · exact isTrueIn_of_mem_positions (hpositions _ (by simp))
  · exact isTrueIn_of_mem_positions (hpositions _ (by simp))

theorem fitsIn_of_mem_tokens (h : span ∈ (lex text source).tokens.map Token.span) :
    span.FitsIn text source :=
  fitsIn_of_inOrder (inOrder_lex text source) (List.subset_append_left _ _) h

theorem fitsIn_of_mem_errors (h : span ∈ (lex text source).errors.map LexicalError.span) :
    span.FitsIn text source :=
  fitsIn_of_inOrder (inOrder_lex_errors text source) (List.subset_append_right _ _) h

/-- The start of a text is a place in it, even if it is empty. -/
theorem fitsIn_start : (Span.point source .start).FitsIn text source := by
  have hstart : Pos.start.IsTrueIn text := Pos.isTrueIn_through (List.nil_append _).symm
  exact ⟨⟨rfl, Nat.le_refl _⟩, hstart, hstart⟩

/-- A run of tokens fits, since its first and its last token do. -/
theorem fitsIn_of_marks (h : Marks source (textStream text source).tokens span) :
    span.FitsIn text source := by
  have horder : TokensInOrder source (textStream text source).tokens :=
    textStream_inOrder text source
  have hlies := horder.marks_liesIn h
  rcases horder.marks_iff.mp h with ⟨part, hpart, hinfix, rfl⟩
  obtain ⟨first, hfirst, last, hlast, heq, -⟩ :=
    (horder.sublist hinfix.sublist).extent_spec hpart
  have hpart : part ⊆ (textStream text source).tokens := hinfix.subset
  have hfits : ∀ token ∈ part, token.span.FitsIn text source := by
    intro token htoken
    have hmem : token.span ∈ (textStream text source).tokens.map Token.span :=
      List.mem_map_of_mem (hpart htoken)
    exact fitsIn_of_mem_tokens ((textStream_sublist text source).subset hmem)
  constructor
  · exact hlies
  · rw [heq]
    exact (hfits first hfirst).start
  · rw [heq]
    exact (hfits last hlast).stop

/-- Each diagnostic of a parsed text fits it, wherever its span comes from. -/
theorem fitsIn_of_mem_diagnostics {limits : Limits} {diagnostic : Diagnostic}
    (h : diagnostic ∈ (parse text source limits).diagnostics) :
    diagnostic.span.FitsIn text source := by
  rw [parse_eq] at h
  rcases List.mem_append.mp h with hlexical | hparsed
  · obtain ⟨error, herror, rfl⟩ := List.mem_map.mp hlexical
    exact fitsIn_of_mem_errors (List.mem_map_of_mem herror)
  · cases hexcess : excessTokens? (textStream text source) limits with
    | some count =>
        rw [parseTokens_of_excess source hexcess] at hparsed
        rw [List.mem_singleton.mp hparsed]
        exact fitsIn_start
    | none =>
        rw [parseTokens_of_fitting source hexcess] at hparsed
        rcases List.mem_append.mp hparsed with hdirective | hreported
        · have hmem := span_directive_diagnostic _ hdirective
          exact fitsIn_of_mem_tokens ((textStream_directives_sublist text source).subset hmem)
        · obtain ⟨-, -, -, hmarks, -⟩ := fileOutcome_spec ⟨False, source⟩ limits
            (fun _ => textStream_ends text source) False.elim
          exact fitsIn_of_marks (hmarks diagnostic hreported)

end

/-! ## Reports -/

theorem Pos.IsTrueIn.isValid {text : String} {pos : Pos} (h : pos.IsTrueIn text) :
    String.Pos.Raw.IsValid text ⟨pos.offset⟩ := by
  rcases h with ⟨before, ⟨after, hafter⟩, hpos⟩
  rw [String.Pos.Raw.isValid_iff_exists_append]
  refine ⟨String.ofList before, String.ofList after, ?_, ?_⟩
  · rw [← String.ofList_append, hafter, String.ofList_toList]
  · rw [hpos.offset]
    rfl

/-- The span is a range of bytes of the text, with both ends on boundaries of characters. -/
structure Span.IsRangeOf (span : Span) (text : String) (source : SourceId) : Prop where
  source : span.source = source
  start_le_stop : span.start.offset ≤ span.stop.offset
  stop_le : span.stop.offset ≤ text.utf8ByteSize
  start_valid : String.Pos.Raw.IsValid text ⟨span.start.offset⟩
  stop_valid : String.Pos.Raw.IsValid text ⟨span.stop.offset⟩

theorem Span.FitsIn.isRangeOf {span : Span} {text : String} {source : SourceId}
    (h : span.FitsIn text source) : span.IsRangeOf text source where
  source := h.liesIn.1
  start_le_stop := h.liesIn.2
  stop_le := h.stop.isValid.le_rawEndPos
  start_valid := h.start.isValid
  stop_valid := h.stop.isValid

theorem Span.IsRangeOf.isIn {span : Span} {text : String} {source : SourceId}
    (h : span.IsRangeOf text source) : span.isIn text = true := by
  simp only [Span.isIn, Bool.and_eq_true, decide_eq_true_eq]
  exact ⟨⟨h.stop_le, String.Pos.Raw.isValid_eq_true_iff.mpr h.start_valid⟩,
    String.Pos.Raw.isValid_eq_true_iff.mpr h.stop_valid⟩

/-- Where all spans are in the source, the report is what was made of each diagnostic. -/
theorem renderDiagnostics_of_isIn {source : String} {diagnostics : List Diagnostic}
    (h : ∀ diagnostic ∈ diagnostics, diagnostic.span.isIn source = true) (name : String)
    (emit : (name source : String) → Diagnostic → String) :
    renderDiagnostics name source diagnostics emit =
      String.join (diagnostics.map (emit name source)) := by
  rw [renderDiagnostics, List.map_congr_left fun diagnostic hmem => if_pos (h diagnostic hmem)]

/-- Every diagnostic of a parsed text is about a range of its bytes, so that a report shows
each of them over the source, in whatever way that is done. -/
theorem parse_diagnostics_render (text : String) (source : SourceId) (limits : Limits) :
    (∀ diagnostic ∈ (parse text source limits).diagnostics,
      diagnostic.span.IsRangeOf text source) ∧
    ∀ name emit, renderDiagnostics name text (parse text source limits).diagnostics emit =
      String.join ((parse text source limits).diagnostics.map (emit name text)) := by
  have hrange : ∀ diagnostic ∈ (parse text source limits).diagnostics,
      diagnostic.span.IsRangeOf text source :=
    fun _ hmem => (fitsIn_of_mem_diagnostics hmem).isRangeOf
  exact ⟨hrange, fun name emit =>
    renderDiagnostics_of_isIn (fun diagnostic hmem => (hrange diagnostic hmem).isIn) name emit⟩

/-- A text in which a type is missing behind a character of two bytes. -/
def missingType : String := "type é = ;"

theorem parse_diagnostics_render_missingType :
    (parse missingType ⟨0⟩ default).diagnostics.map
      (fun diagnostic => (diagnostic.span.start.offset, diagnostic.span.stop.offset)) = [(10, 11)] ∧
    ∀ diagnostic ∈ (parse missingType ⟨0⟩ default).diagnostics,
      diagnostic.span.IsRangeOf missingType ⟨0⟩ :=
  ⟨by decide +kernel, (parse_diagnostics_render missingType ⟨0⟩ default).1⟩

end DeclFile
