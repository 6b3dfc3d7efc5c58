import DeclFile.Proofs.Quiet.Starts
import DeclFile.Proofs.Reading.File
import DeclFile.Proofs.Sources
import DeclFile.Proofs.StatementBlank

/-! # Reading a file of one statement without a word -/

namespace DeclFile

/-- Nothing is ahead but the end of the text. -/
def Ahead.finished : Ahead := fun stream => stream.pending = []

variable {limits : Limits} {tokens : TokenStream} {before : Ahead} {Q : Statement → Prop}

namespace Parser

/-- A statement that takes up the whole text is the only one. -/
theorem Gives.statements_single {reach : Reach TokenStream}
    (hfirst : ∀ source, before source →
      source.peek.kind ≠ .endOfText ∧ source.peek.kind ≠ .mark .semicolon)
    (hstatement : (Parser.statement false).Gives reach before .finished Q) :
    (Parser.statements false .endOfText).Gives reach before .finished
      fun statements => ∃ statement, statements = [statement] ∧ Q statement := by
  have hturn : (statementTurn false .endOfText).Gives reach before .finished fun taken =>
      taken.again = true ∧ ∃ statement, taken.result? = some statement ∧ Q statement := by
    refine (kindAhead_of (Q := fun kind => kind ≠ .endOfText ∧ kind ≠ .mark .semicolon)
      fun source hsource => ?_).bind fun kind hkind => ?_
    · rw [TokenStream.ahead_zero]
      exact hfirst source hsource
    · rw [if_neg (by simp [hkind.1]), if_neg hkind.2]
      refine (settle (Q := fun settled => ∃ statement, settled = .done statement ∧ Q statement)
        (hstatement.mono fun statement h => ⟨statement, rfl, h⟩)).bind ?_
      rintro _ ⟨statement, rfl, hQ⟩
      exact .pure ⟨rfl, statement, rfl, hQ⟩
  have hstop : (statementTurn false .endOfText).Gives reach .finished .finished fun taken =>
      taken.again = false ∧ taken.result? = none := by
    refine (kindAhead_of (Q := (· = .endOfText)) fun source hsource => ?_).known ?_
    · rw [TokenStream.ahead, show source.pending = [] from hsource]
      exact source.last_kind
    · rw [if_pos (by simp)]
      exact .pure ⟨rfl, rfl⟩
  refine Collects.gives (.step
    (P := fun result? => ∃ statement, result? = some statement ∧ Q statement) hturn (fun source rest hsource hrest => ?_) ?_)
  · rw [show rest.pending = [] from hrest]
    refine List.length_pos_iff.mpr fun hnil => (hfirst source hsource).1 ?_
    rw [TokenStream.peek, hnil]
    exact source.last_kind
  · rintro _ ⟨statement, rfl, hQ⟩
    exact .last (hstop.mono fun taken htaken => ⟨htaken.1, statement, by simp [htaken.2], hQ⟩)

end Parser

/-- A file without directives that is one statement is read as that up to spans, with nothing
reported. -/
theorem parseTokens_single {expected : Statement} (source : SourceId) (hdirectives : tokens.directives = [])
    (hsize : tokens.size ≤ limits.maxTokens) (htokens : before tokens)
    (hfirst : ∀ stream, before stream →
      stream.peek.kind ≠ .endOfText ∧ stream.peek.kind ≠ .mark .semicolon)
    (hstatement : (Parser.statement false).Gives
      ((grammar limits.maxDepth).reach source limits.maxDepth) before .finished
      fun statement => statement.blank = expected) :
    (parseTokens tokens source limits).module.statements.map Statement.blank = [expected] ∧
      (parseTokens tokens source limits).diagnostics = [] := by
  obtain ⟨_, lastRead, rest, hrun, -, statement, rfl, hblank⟩ :=
    Parser.Gives.statements_single hfirst hstatement tokens htokens
  have hfile : fileOutcome limits tokens source = ⟨some [statement], [], lastRead, rest⟩ := hrun
  have hparsed := parseTokens_of_fitting source (excessTokens?_of_le hsize)
  constructor
  · simp [hparsed, hfile, hblank]
  · simp [hparsed, hfile, directiveOutcomes, hdirectives]

/-- A file that is written as one statement is read as that. -/
theorem parseTokens_written [Layout] {symbol : Symbol} {symbols : List Symbol} {expected : Statement}
    (source : SourceId) (hdirectives : tokens.directives = []) (hsize : tokens.size ≤ limits.maxTokens)
    (htokens : Heads (symbol :: symbols) tokens) (hbehind : Layout.behind.pending = [])
    (hfirst : symbol.kind ≠ .endOfText ∧ symbol.kind ≠ .mark .semicolon)
    (hstatement : (Parser.statement false).Gives
      ((grammar limits.maxDepth).reach source limits.maxDepth)
      (symbol :: symbols) (Heads []) fun statement => statement.blank = expected) :
    (parseTokens tokens source limits).module.statements.map Statement.blank = [expected] ∧
      (parseTokens tokens source limits).diagnostics = [] := by
  refine parseTokens_single source hdirectives hsize htokens (fun stream hstream => ?_)
    (hstatement.widen fun rest hrest => ?_)
  · rwa [hstream.stands_peek.kind]
  · rwa [Heads.nil_iff.mp hrest]

/-- So is one that is written like the placed symbols of a statement. -/
theorem parseTokens_placed {behind last : TokenStream} {place : Placed} {places : List Placed}
    {expected : Statement} (source : SourceId) (hdirectives : tokens.directives = [])
    (hsize : tokens.size ≤ limits.maxTokens) (htokens : Spread behind (place :: places) tokens)
    (hlast : last.pending = [])
    (hfirst : place.symbol.kind ≠ .endOfText ∧ place.symbol.kind ≠ .mark .semicolon)
    (hstatement : (Parser.statement false).Gives
      ((grammar limits.maxDepth).reach source limits.maxDepth)
      (Spread behind (place :: places)) (Spread last []) fun statement => statement.blank = expected) :
    (parseTokens tokens source limits).module.statements.map Statement.blank = [expected] ∧
      (parseTokens tokens source limits).diagnostics = [] := by
  refine parseTokens_single source hdirectives hsize htokens (fun stream hstream => ?_)
    (hstatement.widen fun rest hrest => ?_)
  · rwa [hstream.standsAs_peek.kind]
  · rwa [Spread.nil_iff.mp hrest]

end DeclFile
