import DeclFile.Proofs.Nesting
import DeclFile.Proofs.Succession.Declaration

/-! # Diagnostics of files

Whatever a text is, what is wrong with its statements is reported in the order of the text, but
for the parameters of getters and setters.
-/

namespace DeclFile

namespace Parser

variable {text : List Token} {place : Place} {source : TokenStream}

/-! ## Exports -/

theorem namedExports_proceeds (typeOnly : Bool) :
    (namedExports typeOnly).Proceeds text place source := by
  refine .bind (specifiers_proceeds fun _ _ => exportName_proceeds.bind fun _ _ => ?_)
    fun _ _ => .bind .skipIf fun _ _ => .either (.map moduleSpecifier_proceeds) .pure
      fun _ _ => endStatement_proceeds.bind fun _ _ => .pure
  exact .bind .skipIf fun _ _ => .either (.map exportName_proceeds) .pure fun _ _ => .pure

theorem exportAll_proceeds (typeOnly : Bool) : (exportAll typeOnly).Proceeds text place source :=
  .bind .advance fun _ _ => .bind .skipIf fun _ _ =>
    .either (.map exportName_proceeds) .pure fun _ _ => .bind .expect fun _ _ =>
      moduleSpecifier_proceeds.bind fun _ _ => endStatement_proceeds.bind fun _ _ => .pure

section

variable [place.Successive text]

theorem defaultExport_proceeds : defaultExport.Proceeds text place source := by
  refine .observe .peekKind (.observe (.kindAhead 1) ?_)
  split
  · exact (declaration_proceeds true true).bind fun _ _ => .pure
  split
  · exact entityName_proceeds.bind fun _ _ => endStatement_proceeds.bind fun _ _ => .pure
  · exact .bind .reportHere fun _ _ => skipInitializer_proceeds.bind fun _ _ =>
      endStatement_proceeds.bind fun _ _ => .fail

theorem exported_proceeds : exported.Proceeds text place source := by
  refine .observe .peekKind (.observe (.kindAhead 1) ?_)
  split
  · exact .bind .advance fun _ _ => entityName_proceeds.bind fun _ _ =>
      endStatement_proceeds.bind fun _ _ => .pure
  · exact .bind .advance fun _ _ => .bind .expect fun _ _ => ident_proceeds.bind fun _ _ =>
      endStatement_proceeds.bind fun _ _ => .pure
  · exact .bind .advance fun _ _ => defaultExport_proceeds
  · exact exportAll_proceeds false
  · exact namedExports_proceeds false
  · split
    · exact .bind .advance fun _ _ => namedExports_proceeds true
    split
    · exact .bind .advance fun _ _ => exportAll_proceeds true
    · exact .map (declaration_proceeds true false)
  · exact .map importStatement_proceeds
  · exact .map ambientDeclaration_proceeds
  · exact .map (declaration_proceeds true false)

/-! ## Statements -/

theorem statement_proceeds (ambient : Bool) : (statement ambient).Proceeds text place source := by
  refine .observe .peekKind (.observe (.kindAhead 1) ?_)
  split
  · exact ambientDeclaration_proceeds
  · exact .spanned (.bind .advance fun _ _ => exported_proceeds)
  · split
    · exact declaration_proceeds ambient false
    · exact importStatement_proceeds
  · exact declaration_proceeds ambient false

theorem statements_proceeds (ambient : Bool) (close : Kind) :
    (statements ambient close).Proceeds text place source := by
  refine .collect fun source => .observe .peekKind ?_
  split
  · exact .pure
  split
  · exact .bind .advance fun _ _ => .pure
  refine (statement_proceeds ambient).settle.bind fun settled rest => ?_
  split
  · exact .pure
  · exact (recoverStatement_proceeds _).bind fun _ _ => .pure

/-! ## Goals -/

theorem rule_proceeds (goal : Goal) : (rule goal).Proceeds text place source := by
  cases goal with
  | type => exact conditionalType_proceeds
  | operand inBound => exact operatorType_proceeds inBound
  | constraint inBound => exact .attempt
  | members => exact memberList_proceeds fun _ => member_proceeds
  | classMembers => exact memberList_proceeds fun _ => classMember_proceeds
  | block => exact (statements_proceeds true _).bind fun _ _ => .bind .expectOrReport fun _ _ =>
      .pure

end

theorem refusal_proceeds (limit : Nat) (goal : Goal) :
    (refusal limit goal).Proceeds text place source := by
  cases goal with
  | type | operand | constraint =>
      unfold refusal refusal.tooDeep
      exact .refuse
  | members | classMembers =>
      exact .bind .reportHere fun _ _ => (skipGroupsUntil_proceeds _).bind fun _ _ => .pure
  | block => exact .bind .reportHere fun _ _ => skipBlockRest_proceeds.bind fun _ _ => .pure

end Parser

/-- All goals of the grammar report in turn, by induction on the levels that are left. -/
theorem Place.successive {limit : Nat} (text : List Token) (place : Place)
    (hgrammar : place.grammar = DeclFile.grammar limit) : place.Successive text := by
  induction hlevels : place.limit - place.depth using Nat.strong_induction_on
    generalizing place with
  | _ levels ih =>
      constructor
      intro goal source hlies hlow outcome peak hevaluates
      -- A goal is read by its rule one level further in, or refused at the limit.
      obtain ⟨hdepth, peak, hrule⟩ | ⟨peak, hrefusal⟩ := hevaluates.parts
      · have hdeeper : place.limit - (place.depth + 1) < levels := by omega
        have hinside : (place.inside source.pending.length).Successive text :=
          ih _ hdeeper _ hgrammar rfl
        rw [hgrammar] at hrule
        exact Parser.rule_proceeds goal hlies hlow hrule
      · rw [hgrammar] at hrefusal
        exact Parser.refusal_proceeds limit goal hlies hlow hrefusal

/-! ## Files -/

/-- Before anything is read all tokens are left. -/
theorem TokenStream.liesIn_tokens {stream : TokenStream} {source : SourceId} (hends : stream.Ends)
    (hnonempty : ∀ token ∈ stream.pending, token.span.start.offset < token.span.stop.offset)
    (horder : TokensInOrder source stream.tokens) : stream.LiesIn stream.tokens where
  suffix := List.suffix_rfl
  ascends := by
    have hpairwise := List.pairwise_map.mp horder.pairwise
    refine hpairwise.imp_of_mem fun {first second} hfirst _ hprecedes => ?_
    exact Nat.le_trans (horder.forward _ (List.mem_map_of_mem hfirst)) hprecedes
  ends := hends
  nonempty := hnonempty

theorem textStream_liesIn (text : String) (source : SourceId) :
    (textStream text source).LiesIn (textStream text source).tokens :=
  TokenStream.liesIn_tokens (fun _ => textStream_ends text source)
    (fun _ => textStream_nonempty text source) (textStream_inOrder text source)

/-- What is reported of the tokens of a file without directives comes in turn. -/
theorem parseTokens_inTurn {tokens : TokenStream} (source : SourceId) (limits : Limits)
    (h : tokens.LiesIn tokens.tokens) (hdirectives : tokens.directives = []) :
    (parseTokens tokens source limits).diagnostics.Pairwise
      (Diagnostic.InTurn tokens.tokens) := by
  cases hexcess : excessTokens? tokens limits with
  | some count =>
      rw [parseTokens_of_excess source hexcess]
      exact List.pairwise_singleton _ _
  | none =>
      obtain ⟨⟨peak, hevaluates⟩, -⟩ := fileOutcome_spec ⟨False, source⟩ limits h.ends False.elim
      have hsuccessive : (Place.outset limits tokens source).Successive tokens.tokens :=
        Place.successive _ _ rfl
      have hreported := Parser.statements_proceeds false .endOfText h (Nat.le_refl _) hevaluates
      rw [parseTokens_of_fitting source hexcess, directiveOutcomes, hdirectives]
      exact hreported.inTurn

/-- What is reported of a text that is read as a single type comes in turn behind the lexical
errors. -/
theorem parseType_inTurn (text : String) :
    ((parseType text).2.drop (lex text ⟨0⟩).errors.length).Pairwise
      (Diagnostic.InTurn (textStream text ⟨0⟩).tokens) := by
  have hlies := textStream_liesIn text ⟨0⟩
  have hmeets : Parser.wholeType.Meets ⟨False, ⟨0⟩⟩
      (.outset default (textStream text ⟨0⟩) ⟨0⟩) (textStream text ⟨0⟩) _ _ :=
    Parser.wholeType_meets (Nat.lt_succ_self _)
  obtain ⟨⟨peak, hevaluates⟩, -⟩ := hmeets rfl (Setting.admits_outset hlies.ends) False.elim
  have hsuccessive : (Place.outset default (textStream text ⟨0⟩) ⟨0⟩).Successive
      (textStream text ⟨0⟩).tokens := Place.successive _ _ rfl
  have hproceeds : Parser.wholeType.Proceeds (textStream text ⟨0⟩).tokens
      (.outset default (textStream text ⟨0⟩) ⟨0⟩) (textStream text ⟨0⟩) := Parser.wholeType_proceeds
  have hreported := hproceeds hlies (Nat.le_refl _) hevaluates
  have hlength : (lex text ⟨0⟩).errors.length =
      ((lex text ⟨0⟩).errors.map LexicalError.toDiagnostic).length := by simp
  rw [hlength]
  exact List.drop_left.symm ▸ hreported.inTurn

/-- The diagnostics of the parser, which are those behind the lexical errors, come in the order of
the text where there is no directive, but for those about the parameters of a getter or setter,
which come behind what is wrong inside of them. -/
theorem parse_diagnostics_inTurn (text : String) (source : SourceId) (limits : Limits)
    (h : ∀ token ∈ (lex text source).tokens, token.kind ≠ .directive) :
    ((parse text source limits).diagnostics.drop (lex text source).errors.length).Pairwise
      (Diagnostic.InTurn (textStream text source).tokens) := by
  have hdirectives : (textStream text source).directives = [] := by
    rw [(textStream_spec text source).2.2, List.filter_eq_nil_iff]
    intro token htoken
    have hmem : token ∈ (lex text source).tokens := by
      rw [lex_tokens]
      exact List.mem_append_left _ htoken
    simpa using h token hmem
  have hlength : (lex text source).errors.length =
      ((lex text source).errors.map LexicalError.toDiagnostic).length := by simp
  rw [parse_eq, hlength, List.drop_left]
  exact parseTokens_inTurn source limits (textStream_liesIn text source) hdirectives

/-- A file with a lexical error and four others, none of which is about a getter or setter. -/
def faulty : String := "let a = 1 #\ntype = B\nenum C { d = e }"

theorem parse_diagnostics_inTurn_faulty :
    (∀ token ∈ (lex faulty ⟨0⟩).tokens, token.kind ≠ .directive) ∧
      (parse faulty ⟨0⟩ default).diagnostics.map (·.span.start.offset) = [10, 0, 8, 12, 34] ∧
      ((parse faulty ⟨0⟩ default).diagnostics.drop 1).Pairwise
        (Diagnostic.InTurn (textStream faulty ⟨0⟩).tokens) := by
  have hplain : ∀ token ∈ (lex faulty ⟨0⟩).tokens, token.kind ≠ .directive := by decide +kernel
  have hlexical : (lex faulty ⟨0⟩).errors.length = 1 := by decide +kernel
  have hinTurn := parse_diagnostics_inTurn faulty ⟨0⟩ default hplain
  rw [hlexical] at hinTurn
  exact ⟨hplain, by decide +kernel, hinTurn⟩

/-- A getter with a parameter that is wrong by itself. -/
def belated : String := "interface I { get a(x = 1): T }"

/-- What is wrong inside of parameters is reported before they are, though it stands behind the
parenthesis where they are reported. -/
theorem parse_diagnostics_belated :
    (∀ token ∈ (lex belated ⟨0⟩).tokens, token.kind ≠ .directive) ∧
      (lex belated ⟨0⟩).errors = [] ∧
      (parse belated ⟨0⟩ default).diagnostics.map (·.span.start.offset) = [22, 19] ∧
      ¬((parse belated ⟨0⟩ default).diagnostics.drop (lex belated ⟨0⟩).errors.length).Pairwise
        fun first second => first.span.start.offset ≤ second.span.start.offset := by
  decide +kernel

end DeclFile
