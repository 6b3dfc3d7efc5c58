import DeclFile.Proofs.Brackets.Statement
import DeclFile.Proofs.Nesting
import Mathlib.Data.List.Chain

/-! # Brackets in whole files

In a file that is parsed without a diagnostic the brackets nest, but for the groups that are
passed over by counting. Without such groups they nest properly.
-/

namespace DeclFile

open DeclFile.Parser (opensGroup closesGroup)

/-! ## Proper nesting -/

theorem closer?_cases {kind : Kind} {mark : Mark} (h : closer? kind = some mark) :
    closesGroup (.mark mark) = true ∧ (mark = .closeParen → kind = .mark .openParen) := by
  unfold closer? at h
  split at h
  all_goals cases h
  all_goals exact ⟨rfl, by simp⟩

theorem closer?_of_closesGroup {kind : Kind} (h : closesGroup kind = true) :
    closer? kind = none := by
  unfold closesGroup at h
  split at h
  all_goals first | rfl | cases h

theorem closer?_of_plain {kind : Kind} (h : isBracket kind = false) :
    closer? kind = none ∧ closesGroup kind = false := by
  refine ⟨?_, (Bool.or_eq_false_iff.mp h).2⟩
  unfold closer?
  split
  all_goals first | rfl | cases h

theorem isBracket_of_precedesParam {kind : Kind} (h : precedesParam kind = true) :
    isBracket kind = false := by
  unfold precedesParam at h
  split at h
  all_goals first | rfl | cases h

/-- Whether a token may begin what a parameter is destructured into. -/
def beginsPattern (kind : Kind) : Bool :=
  kind == .mark .openBrace || kind == .mark .openBracket

/-- Whether a group is passed over that begins after a token. -/
def passesOver (before next : Token) : Bool :=
  announcesAttributes before && next.kind == .mark .openBrace ||
    (before.kind == .mark .openParen || precedesParam before.kind) && beginsPattern next.kind

/-- Without groups that are passed over, brackets that nest do so properly. -/
theorem Nests.proper {fresh : Bool} {awaited : List Mark} {tokens : List Token}
    (h : Nests fresh awaited tokens)
    (hawaited : ∀ mark ∈ awaited, closesGroup (.mark mark) = true)
    (hchain : tokens.IsChain fun before next => passesOver before next = false)
    (hfresh : fresh = true → ∀ token ∈ tokens.head?, beginsPattern token.kind = false) :
    properlyNested awaited tokens = true := by
  -- The head of the rest is only of concern behind a token that makes it a parameter's.
  have hrest {token : Token} {rest : List Token}
      (hchain : (token :: rest).IsChain fun before next => passesOver before next = false)
      (h : (token.kind == .mark .openParen || precedesParam token.kind) = true) :
      ∀ next ∈ rest.head?, beginsPattern next.kind = false := fun next hnext => by
    have hpasses := (List.isChain_cons.mp hchain).1 next hnext
    simp only [passesOver, h, Bool.true_and, Bool.or_eq_false_iff] at hpasses
    exact hpasses.2
  induction h with
  | done => rfl
  | plain htoken _ ih =>
      obtain ⟨hcloser, hcloses⟩ := closer?_of_plain htoken
      simpa [properlyNested, hcloser, hcloses] using ih hawaited hchain.tail nofun
  | @opening _ _ token _ mark htoken _ ih =>
      obtain ⟨hcloses, hparen⟩ := closer?_cases htoken
      simp only [properlyNested, htoken]
      refine ih (by simpa [hcloses] using hawaited) hchain.tail fun hmark => ?_
      exact hrest hchain (by simp [hparen (beq_iff_eq.mp hmark)])
  | closing htoken _ ih =>
      have hcloses := hawaited _ (.head _)
      have hcloser := closer?_of_closesGroup hcloses
      simp only [properlyNested, htoken, hcloser, hcloses, if_true, beq_self_eq_true,
        Bool.true_and]
      exact ih (fun mark hmark => hawaited mark (.tail _ hmark)) hchain.tail nofun
  | preceding htoken _ ih =>
      obtain ⟨hcloser, hcloses⟩ := closer?_of_plain (isBracket_of_precedesParam htoken)
      simpa [properlyNested, hcloser, hcloses] using
        ih hawaited hchain.tail fun _ => hrest hchain (by simp [htoken])
  | destructured htoken =>
      have hpattern := hfresh rfl _ rfl
      obtain hbrace | hbracket := htoken
      · simp [beginsPattern, hbrace] at hpattern
      · simp [beginsPattern, hbracket] at hpattern
  | attributes hword hbrace | unclosed hword hbrace =>
      have hpasses := (List.isChain_cons.mp hchain).1 _ rfl
      simp [passesOver, hword, hbrace] at hpasses

/-! ## Clean files -/

/-- If reading tokens reports nothing, then the brackets among them nest. -/
theorem parseTokens_brackets {tokens : TokenStream} {source : SourceId} {limits : Limits}
    (hends : tokens.Ends) (hclean : (parseTokens tokens source limits).diagnostics = []) :
    Nests false [] tokens.pending := by
  cases hexcess : excessTokens? tokens limits with
  | some count =>
      rw [parseTokens_of_excess source hexcess] at hclean
      exact absurd hclean (by simp)
  | none =>
      rw [parseTokens_of_fitting source hexcess] at hclean
      have hquiet := (List.append_eq_nil_iff.mp hclean).2
      obtain ⟨⟨peak, hevaluates⟩, hrest, -, -, found, hfound, -⟩ :=
        fileOutcome_spec ⟨True, source⟩ limits hends fun _ => hquiet
      have : (Place.outset limits tokens source).Bracketed := Place.bracketed _ rfl
      have hstatements : (Parser.statements false .endOfText).Brackets
          (.outset limits tokens source) False tokens [] [] :=
        Parser.statements_brackets false .endOfText
      have hcarries := hstatements hends hevaluates hquiet
      -- Everything was read, and where nothing is left nothing is open.
      rw [hfound, hrest] at hcarries
      exact hcarries .done

/-- If parsing a text reports nothing, then its brackets nest, but for the groups that are
passed over by counting. Without such groups they nest properly. -/
theorem clean_parse_nests (text : String) (source : SourceId) (limits : Limits)
    (hclean : (parse text source limits).diagnostics = []) :
    Nests false [] (textStream text source).pending ∧
    ((textStream text source).pending.IsChain
        (fun before next => passesOver before next = false) →
      properlyNested [] (textStream text source).pending = true) := by
  rw [parse_eq] at hclean
  have hnests := parseTokens_brackets (fun _ => textStream_ends text source)
    (List.append_eq_nil_iff.mp hclean).2
  exact ⟨hnests, fun hchain => hnests.proper (by simp) hchain nofun⟩

/-- An import with attributes, and a function with a parameter that is destructured. -/
def passedGroups : String := "import a from \"m\" with \x7b k: \"v\" \x7d;
declare function f(\x7b a, b: [c] \x7d: [T], d: (e: U) => V[]): \x7b g: W \x7d;"

/-- The function without what is passed over. -/
def noPassedGroups : String :=
  "declare function f(a: [T], d: (e: U) => V[]): \x7b g: [W, X] \x7d;"

theorem clean_parse_nests_groups :
    (parse passedGroups ⟨0⟩ default).diagnostics = [] ∧
    Nests false [] (textStream passedGroups ⟨0⟩).pending ∧
    (parse noPassedGroups ⟨0⟩ default).diagnostics = [] ∧
    properlyNested [] (textStream noPassedGroups ⟨0⟩).pending = true :=
  ⟨by decide +kernel, (clean_parse_nests passedGroups ⟨0⟩ default (by decide +kernel)).1,
    by decide +kernel,
    (clean_parse_nests noPassedGroups ⟨0⟩ default (by decide +kernel)).2 (by decide +kernel)⟩

/-- The attributes of this import do not end. -/
def openAttributes : String := "import \"m\" with \x7b"

/-- Nothing is reported where a group that is passed over does not end. -/
theorem clean_parse_unbalanced :
    (parse openAttributes ⟨0⟩ default).diagnostics = [] ∧
    properlyNested [] (textStream openAttributes ⟨0⟩).pending = false :=
  ⟨by decide +kernel, by decide +kernel⟩

end DeclFile
