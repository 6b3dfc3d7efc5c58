import DeclFile.Parsed
import DeclFile.Proofs.Reading.Statement

/-! # Reading a whole file

The statements of a file are read from the outset, where no level of nesting is active and
nothing was read. They use up all tokens.
-/

namespace DeclFile

/-- Where reading a file begins. -/
def Place.outset (limits : Limits) (tokens : TokenStream) (file : SourceId) : Place :=
  ⟨DeclFile.grammar limits.maxDepth, file, limits.maxDepth, 0, tokens.pending.length + 1⟩

/-- The whole text of a file, before anything is read. -/
def Setting.outset (limits : Limits) (tokens : TokenStream) (file : SourceId) : Setting :=
  ⟨.outset limits tokens file, tokens.tokens⟩

namespace Setting

variable {limits : Limits} {tokens : TokenStream} {file : SourceId}

instance : (Setting.outset limits tokens file).Grounded := Setting.grounded _ rfl

theorem admits_outset (hends : ∀ token ∈ tokens.pending, token.kind ≠ .endOfText) :
    (Setting.outset limits tokens file).Admits tokens where
  ends := hends
  inside := Nat.le_succ _
  suffix := List.suffix_refl _

/-- At the end of the text everything was read. -/
theorem Follows.read_eq {setting : Setting} {source rest : TokenStream} {read : List Token}
    (h : setting.Follows source read rest) (hend : rest.peek.kind = .endOfText) :
    rest.pending = [] ∧ read = source.pending := by
  have hrest := TokenStream.pending_eq_nil_of_peek h.admits_rest.ends hend
  exact ⟨hrest, by simp [h.pending, hrest]⟩

end Setting

/-- What reading the statements of a file comes to. -/
def fileOutcome (limits : Limits) (tokens : TokenStream) (file : SourceId) :
    Outcome TokenStream (List Statement) :=
  (grammar limits.maxDepth).run file limits.maxDepth (Parser.statements false .endOfText) tokens

section

variable {limits : Limits} {tokens : TokenStream} (source : SourceId)

theorem parseTokens_of_excess {count : Nat} (h : excessTokens? tokens limits = some count) :
    parseTokens tokens source limits = ⟨⟨source, [], [], .point source .start⟩,
      [(Cause.tooManyTokens count limits.maxTokens).at (.point source .start)]⟩ := by
  simp [parseTokens, h]

/-- What the directives of a file come to. -/
def directiveOutcomes (tokens : TokenStream) : List (Option Reference × List Diagnostic) :=
  tokens.directives.map Reference.ofDirective

theorem parseTokens_of_fitting (h : excessTokens? tokens limits = none) :
    parseTokens tokens source limits =
      ⟨⟨source, (fileOutcome limits tokens source).result?.getD [],
          (directiveOutcomes tokens).filterMap Prod.fst,
          ⟨source, .start, moduleEnd (fileOutcome limits tokens source).rest.peek.span.stop
            ((directiveOutcomes tokens).filterMap Prod.fst)⟩⟩,
        (directiveOutcomes tokens).flatMap Prod.snd ++
          (fileOutcome limits tokens source).reported⟩ := by
  simp only [parseTokens, h]
  rfl

end

/-- The statements of a file are read to its end and lie over all of its tokens. -/
theorem fileOutcome_spec (run : Run) (limits : Limits) {tokens : TokenStream}
    (hends : ∀ token ∈ tokens.pending, token.kind ≠ .endOfText)
    (hclean : run.clean → (fileOutcome limits tokens run.file).reported = []) :
    (∃ peak, Evaluates (.outset limits tokens run.file) (Parser.statements false .endOfText) tokens
      (fileOutcome limits tokens run.file) peak) ∧
    (fileOutcome limits tokens run.file).rest.pending = [] ∧
    (fileOutcome limits tokens run.file).rest.last = tokens.last ∧
    (∀ diagnostic ∈ (fileOutcome limits tokens run.file).reported,
      Marks run.file tokens.tokens diagnostic.span) ∧
    ∃ found, (fileOutcome limits tokens run.file).result? = some found ∧
      Laid run (Gap.body [.semicolon]) tokens.pending (found.map Statement.outline) := by
  have hmeets : (Parser.statements false .endOfText).Meets run (.outset limits tokens run.file)
      tokens False _ := Parser.statements_meets
  obtain ⟨hevaluates, read, hreads, hyields⟩ := hmeets rfl (Setting.admits_outset hends) hclean
  change ∃ peak, Evaluates _ _ _ (fileOutcome limits tokens run.file) peak at hevaluates
  change (fileOutcome limits tokens run.file).Reads _ _ _ at hreads
  change (fileOutcome limits tokens run.file).Yields _ _ at hyields
  refine ⟨hevaluates, ?_⟩
  cases hresult : (fileOutcome limits tokens run.file).result? with
  | none => exact ((Outcome.yields_of_none hresult).mp hyields).elim
  | some found =>
      obtain ⟨hlaid, hstop⟩ := (Outcome.yields_of_some _ hresult).mp hyields
      have hend := (hstop _ hreads.follows).elim id id
      obtain ⟨hrest, rfl⟩ := hreads.follows.read_eq hend
      exact ⟨hrest, hreads.follows.last, hreads.marks, found, rfl, hlaid⟩

end DeclFile
