import DeclFile.Proofs.Scanning

/-! # Pieces of templates nest properly

A closing brace ends a substitution of a template or is a brace of its own. Which of the two it
is can be found again from the tokens alone: for each open substitution count the braces that
are open inside it. The reader keeps just these counts.
-/

namespace DeclFile

open Unicode

/-- The open braces inside each open substitution, innermost first, after a token of a kind. -/
def Kind.nest (depths : List Nat) : Kind → List Nat
  | .templateHead => 0 :: depths
  | .mark .openBrace => depths.modifyHead (· + 1)
  | .mark .closeBrace => depths.modifyHead (· - 1)
  | .templateTail => depths.tail
  | _ => depths

/-- Whether a token of a kind may come where these braces are open. -/
def Kind.Fits (depths : List Nat) : Kind → Prop
  | .templateMiddle | .templateTail => depths.head? = some 0
  | .mark .closeBrace => depths.head? ≠ some 0
  | _ => True

theorem Kind.steady {kind : Kind} (h : kind.isNesting = false) (depths : List Nat) :
    kind.Fits depths ∧ kind.nest depths = depths := by
  cases kind with
  | mark sign => cases sign <;> first | exact ⟨trivial, rfl⟩ | cases h
  | _ => first | exact ⟨trivial, rfl⟩ | cases h

/-- The open braces inside each open substitution after some tokens. -/
def openSubstitutions (tokens : List Token) : List Nat :=
  tokens.foldl (fun depths token => token.kind.nest depths) []

theorem openSubstitutions_concat (tokens : List Token) (token : Token) :
    openSubstitutions (tokens ++ [token]) = token.kind.nest (openSubstitutions tokens) := by
  rw [openSubstitutions, List.foldl_concat]
  rfl

/-! ## One lexeme -/

namespace Lexeme

/-- The lexeme may come where the braces are open, and what is open after it is what its kind
says. -/
structure Nests (depths : List Nat) (lexeme : Lexeme) : Prop where
  fits : ∀ kind, lexeme.kind = some kind → kind.Fits depths
  depths_eq : lexeme.depths = (lexeme.kind.map (Kind.nest depths)).getD depths

variable {depths : List Nat}

theorem IsOrdinary.nests {lexeme : Lexeme} (h : lexeme.IsOrdinary depths) :
    lexeme.Nests depths := by
  obtain ⟨kind, hkind, -, hnesting⟩ := h.kind_eq
  constructor
  · intro other hother
    cases hkind.symm.trans hother
    exact (Kind.steady hnesting depths).1
  · rw [h.depths_eq, hkind]
    exact (Kind.steady hnesting depths).2.symm

theorem nests_openBrace : (openBrace depths).Nests depths := by
  cases depths with
  | nil => exact ⟨by rintro _ ⟨⟩; trivial, rfl⟩
  | cons depth outer => exact ⟨by rintro _ ⟨⟩; trivial, rfl⟩

/-- A closing brace resumes a template just where no brace is open in its substitution. -/
theorem nests_closeBrace (rest : List Char) : (closeBrace rest depths).Nests depths := by
  match depths with
  | [] => exact ⟨by rintro _ ⟨⟩; exact nofun, rfl⟩
  | (depth + 1) :: outer => exact ⟨by rintro _ ⟨⟩; exact nofun, rfl⟩
  | 0 :: outer =>
      rw [closeBrace, template]
      split <;> exact ⟨by rintro _ ⟨⟩; rfl, rfl⟩

theorem nests_template (body : Body) :
    (template depths .templateWhole .templateHead body).Nests depths := by
  unfold template
  split <;> exact ⟨by rintro _ ⟨⟩; trivial, rfl⟩

theorem nests_lineComment (rest : List Char) : (lineComment depths rest).Nests depths := by
  unfold lineComment
  dsimp only
  split <;> exact ⟨by rintro _ ⟨⟩; trivial, rfl⟩

theorem nests_read (depths : List Nat) (c : Char) (rest : List Char) :
    (read depths c rest).Nests depths := by
  apply read_cases
  case ordinary => exact fun _ h => h.nests
  case openBrace => exact nests_openBrace
  case closeBrace => exact nests_closeBrace rest
  case template => exact nests_template
  case lineComment => exact fun more _ => nests_lineComment more
  case blockComment => exact fun _ _ => ⟨by rintro _ ⟨⟩; trivial, rfl⟩
  case unexpected => exact ⟨nofun, rfl⟩

end Lexeme

/-! ## Whole texts -/

/-- The braces that the reader keeps count of are the ones that the tokens behind it leave
open. -/
theorem Reaches.openSubstitutions_eq {text : String} {source : SourceId} {pieces : List Piece}
    {state : LexState} {left : List Char} (h : Reaches text source pieces state left) :
    openSubstitutions (pieces.filterMap Piece.token?) = state.depths := by
  induction h with
  | start => rfl
  | space _ _ ih => exact ih
  | @lexeme pieces state c rest lexeme _ _ hread ih =>
      have hdepths := (Lexeme.nests_read state.depths c rest).depths_eq
      rw [hread] at hdepths
      change _ = lexeme.depths
      rw [hdepths, ← ih]
      cases hkind : lexeme.kind with
      | none => rw [filterMap_token?_none pieces hkind, Option.map_none, Option.getD_none]
      | some kind =>
          rw [filterMap_token?_some pieces hkind, openSubstitutions_concat]
          rfl

/-- The pieces of templates among the tokens of a text nest as the braces around them say. -/
structure NestsTemplates (text : String) (source : SourceId) : Prop where
  /-- A template is resumed only where a substitution is open and no brace in it, and a brace
  is closed only where that is not so. -/
  fits : ∀ before token after, (lex text source).tokens = before ++ token :: after →
    token.kind.Fits (openSubstitutions before)
  /-- Wherever the reader of the text stands, it keeps what the tokens behind it leave open. -/
  depths_eq : ∀ pieces state left, Reaches text source pieces state left →
    openSubstitutions (pieces.filterMap Piece.token?) = state.depths

theorem lex_nestsTemplates (text : String) (source : SourceId) : NestsTemplates text source where
  fits before token after htokens := by
    rcases exists_reaches_of_tokens htokens with
      ⟨pieces, place, c, rest, hreaches, -, rfl, htoken⟩ | ⟨-, rfl, -⟩
    · obtain ⟨kind, hkind, rfl⟩ := Option.map_eq_some_iff.mp htoken
      rw [hreaches.openSubstitutions_eq]
      exact (Lexeme.nests_read place.depths c rest).fits kind hkind
    · trivial
  depths_eq _ _ _ hreaches := hreaches.openSubstitutions_eq

end DeclFile
