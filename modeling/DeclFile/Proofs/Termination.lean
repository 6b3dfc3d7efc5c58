import DeclFile.Proofs.Reading.File

/-! # Reading terminates

Reading a file comes to an end whatever its tokens are. Evaluation says so without any bound
handed out in advance: each loop goes on only after a turn that read a token, each nested
construct is reached only after a token was read since the one around it was, and attempts
that are undone change nothing about that. The levels of nesting suffice.
-/

namespace DeclFile

/-- Reading a file evaluates to statements at the end of the text, within the levels of
nesting that there are, and these statements are what is returned unless there are too many
tokens. -/
theorem parseTokens_terminates (tokens : TokenStream) (source : SourceId) (limits : Limits)
    (hends : ∀ token ∈ tokens.pending, token.kind ≠ .endOfText) :
    ∃ statements reported lastRead rest peak,
      Evaluates (.outset limits tokens source) (Parser.statements false .endOfText) tokens
        ⟨some statements, reported, lastRead, rest⟩ peak ∧
      peak ≤ limits.maxDepth ∧ rest.pending = [] ∧
      match excessTokens? tokens limits with
      | some count => parseTokens tokens source limits =
          ⟨⟨source, [], [], .point source .start⟩,
            [(Cause.tooManyTokens count limits.maxTokens).at (.point source .start)]⟩
      | none => (parseTokens tokens source limits).module.statements = statements ∧
          reported <:+ (parseTokens tokens source limits).diagnostics := by
  obtain ⟨⟨peak, hevaluates⟩, hrest, -, -, statements, hresult, -⟩ :=
    fileOutcome_spec ⟨False, source⟩ limits hends False.elim
  have hpeak := hevaluates.peak_le (Nat.zero_le _)
  have heq : fileOutcome limits tokens source =
      ⟨some statements, (fileOutcome limits tokens source).reported,
        (fileOutcome limits tokens source).lastRead, (fileOutcome limits tokens source).rest⟩ := by
    rw [← hresult]
  refine ⟨statements, _, _, _, peak, heq ▸ hevaluates, hpeak.2, hrest, ?_⟩
  split
  next count hexcess => exact parseTokens_of_excess source hexcess
  next hfitting =>
    rw [parseTokens_of_fitting source hfitting]
    exact ⟨by simp [hresult], List.suffix_append _ _⟩

/-- The tokens of an unfinished text, `namespace a { type = [`. -/
def unfinished : TokenStream where
  pending := [⟨.word .namespace, "namespace", default, false⟩, ⟨.identifier, "a", default, false⟩,
    ⟨.mark .openBrace, "\x7b", default, false⟩, ⟨.word .type, "type", default, false⟩,
    ⟨.mark .equals, "=", default, false⟩, ⟨.mark .openBracket, "[", default, false⟩]
  last := ⟨.endOfText, "", default, false⟩
  size := 7
  directives := []

theorem parseTokens_terminates_unfinished :
    (∀ token ∈ unfinished.pending, token.kind ≠ .endOfText) ∧
    ∃ statements reported lastRead rest peak,
      Evaluates (.outset ⟨1, 9⟩ unfinished ⟨0⟩) (Parser.statements false .endOfText) unfinished
        ⟨some statements, reported, lastRead, rest⟩ peak ∧
      peak ≤ 1 ∧ rest.pending = [] ∧
      (parseTokens unfinished ⟨0⟩ ⟨1, 9⟩).module.statements = statements ∧
      reported <:+ (parseTokens unfinished ⟨0⟩ ⟨1, 9⟩).diagnostics :=
  ⟨by decide, parseTokens_terminates unfinished ⟨0⟩ ⟨1, 9⟩ (by decide)⟩

end DeclFile
