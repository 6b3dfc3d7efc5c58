import DeclFile.Proofs.Cutting

/-! # Reading a text up to a place

A reader that stands somewhere in a text has some pieces behind it and some characters in front
of it. It moves over one character of white space or over one whole lexeme. What holds at the
start of a text and survives both moves holds wherever the reader stands, and the reader has
stood in front of each piece of the text.
-/

namespace DeclFile

open Unicode

/-! ## What a lexeme can be -/

/-- Whether tokens of this kind open, close or resume what templates may be nested in. -/
def Kind.isNesting : Kind → Bool
  | .mark .openBrace | .mark .closeBrace => true
  | .templateHead | .templateMiddle | .templateTail => true
  | _ => false

namespace Lexeme

/-- The lexeme is a token between comments and braces, and leaves the open substitutions as
they are. -/
structure IsOrdinary (depths : List Nat) (lexeme : Lexeme) : Prop where
  kind_eq : ∃ kind, lexeme.kind = some kind ∧ kind.isTrivia = false ∧ kind.isNesting = false
  depths_eq : lexeme.depths = depths

variable {depths : List Nat}

theorem isOrdinary_plain {kind : Kind} (htrivia : kind.isTrivia = false)
    (hnesting : kind.isNesting = false) (length : Nat) :
    (plain depths kind length).IsOrdinary depths :=
  ⟨⟨kind, rfl, htrivia, hnesting⟩, rfl⟩

theorem isOrdinary_number (first : Char) (rest : List Char) :
    (number depths first rest).IsOrdinary depths := by
  unfold number
  dsimp only
  split
  · exact ⟨⟨_, rfl, rfl, rfl⟩, rfl⟩
  · exact isOrdinary_plain rfl rfl _

theorem isOrdinary_dot (rest : List Char) : (dot depths rest).IsOrdinary depths := by
  unfold dot
  repeat' split
  all_goals first | exact isOrdinary_number _ _ | exact isOrdinary_plain rfl rfl _

theorem isOrdinary_word (first : Char) (rest : List Char) :
    (word depths first rest).IsOrdinary depths := by
  unfold word
  dsimp only
  split <;> exact isOrdinary_plain rfl rfl _

theorem isOrdinary_mark {c : Char} {mark : Mark} (h : Mark.ofChar? c = some mark) :
    (plain depths (.mark mark) 0).IsOrdinary depths := by
  apply isOrdinary_plain rfl
  unfold Mark.ofChar? at h
  split at h <;> cases h <;> rfl

/-- A lexeme is an ordinary token, a brace, the beginning of a template, a comment, or a
character that begins no token. -/
theorem read_cases {motive : Lexeme → Prop} (depths : List Nat) (c : Char) (rest : List Char)
    (ordinary : ∀ lexeme, lexeme.IsOrdinary depths → motive lexeme)
    (openBrace : motive (openBrace depths)) (closeBrace : motive (closeBrace rest depths))
    (template : ∀ body, motive (template depths .templateWhole .templateHead body))
    (lineComment : ∀ more, rest = '/' :: more → motive (lineComment depths more))
    (blockComment : ∀ more, rest = '*' :: more → motive (blockComment depths more))
    (unexpected : motive (unexpected depths c)) : motive (read depths c rest) := by
  unfold read
  split
  · next hmark => exact ordinary _ (isOrdinary_mark hmark)
  split
  · exact openBrace
  · exact closeBrace
  · exact ordinary _ (isOrdinary_dot _)
  · split <;> exact ordinary _ (isOrdinary_plain rfl rfl _)
  · split
    · exact lineComment _ rfl
    · exact blockComment _ rfl
    · exact ordinary _ (isOrdinary_plain rfl rfl _)
  · exact ordinary _ ⟨⟨_, rfl, rfl, rfl⟩, rfl⟩
  · exact ordinary _ ⟨⟨_, rfl, rfl, rfl⟩, rfl⟩
  · exact template _
  · split
    · exact ordinary _ (isOrdinary_plain rfl rfl _)
    · exact unexpected
  · split
    · exact ordinary _ (isOrdinary_number _ _)
    split
    · exact ordinary _ (isOrdinary_word _ _)
    · exact unexpected

end Lexeme

/-! ## Places of a reader -/

/-- The characters of a lexeme that has been read are passed without more ado. -/
theorem piecesOnto_skip (source : SourceId) (sofar : List Piece) (skip : Nat) (state : LexState)
    (chars : List Char) :
    piecesOnto source sofar skip state chars =
      piecesOnto source sofar 0 { state with pos := state.pos.through (chars.take skip) }
        (chars.drop skip) := by
  induction chars generalizing skip state with
  | nil =>
      rw [List.take_nil, List.drop_nil]
      cases skip <;> rfl
  | cons c rest ih =>
      cases skip with
      | succ skip => exact ih skip (state.afterChar c)
      | zero => rfl

/-- The state in front of what follows a lexeme. -/
def LexState.past (state : LexState) (c : Char) (rest : List Char) (lexeme : Lexeme) : LexState :=
  { state.afterLexeme c rest lexeme with pos := state.pos.through (c :: rest.take lexeme.length) }

/-- The token of some kind that a lexeme is at this place. -/
def LexState.token (state : LexState) (source : SourceId) (c : Char) (rest : List Char)
    (lexeme : Lexeme) (kind : Kind) : Token :=
  let piece := state.piece source c rest lexeme
  ⟨kind, piece.text, piece.span, piece.newlineBefore⟩

/-- A character that begins no token adds nothing to the tokens. -/
theorem filterMap_token?_none (pieces : List Piece) {state : LexState} {source : SourceId}
    {c : Char} {rest : List Char} {lexeme : Lexeme} (h : lexeme.kind = none) :
    (pieces ++ [state.piece source c rest lexeme]).filterMap Piece.token? =
      pieces.filterMap Piece.token? := by
  have hnone : (state.piece source c rest lexeme).token? = none := by
    rw [Piece.token?, LexState.piece, h, Option.map_none]
  rw [List.filterMap_append, List.filterMap_cons_none hnone, List.filterMap_nil, List.append_nil]

theorem filterMap_token?_some (pieces : List Piece) {state : LexState} {source : SourceId}
    {c : Char} {rest : List Char} {lexeme : Lexeme} {kind : Kind} (h : lexeme.kind = some kind) :
    (pieces ++ [state.piece source c rest lexeme]).filterMap Piece.token? =
      pieces.filterMap Piece.token? ++ [state.token source c rest lexeme kind] := by
  have hsome : (state.piece source c rest lexeme).token? =
      some (state.token source c rest lexeme kind) := by
    rw [Piece.token?, LexState.piece, h]
    rfl
  rw [List.filterMap_append, List.filterMap_cons_some hsome, List.filterMap_nil]

/-- A single element has nothing around it. -/
theorem eq_of_singleton_eq_append {α : Type} {before after : List α} {x y : α}
    (h : [y] = before ++ x :: after) : before = [] ∧ y = x ∧ after = [] := by
  cases before with
  | nil =>
      obtain ⟨rfl, rfl⟩ := List.cons.inj h
      exact ⟨rfl, rfl, rfl⟩
  | cons _ before => cases before <;> cases h

/-- Reading the text has passed the pieces and stands in the state, in front of the characters
that are left. -/
inductive Reaches (text : String) (source : SourceId) : List Piece → LexState → List Char → Prop
  | start : Reaches text source [] .initial text.toList
  | space {pieces : List Piece} {state : LexState} {c : Char} {rest : List Char}
      (h : Reaches text source pieces state (c :: rest)) (hspace : isWhiteSpace c = true) :
      Reaches text source pieces (state.afterSpace c) rest
  | lexeme {pieces : List Piece} {state : LexState} {c : Char} {rest : List Char} {lexeme : Lexeme}
      (h : Reaches text source pieces state (c :: rest)) (hspace : isWhiteSpace c = false)
      (hread : Lexeme.read state.depths c rest = lexeme) :
      Reaches text source (pieces ++ [state.piece source c rest lexeme])
        (state.past c rest lexeme) (rest.drop lexeme.length)

namespace Reaches

variable {text : String} {source : SourceId} {pieces : List Piece} {state : LexState}
  {left : List Char}

/-- Going on character by character leads to the end of the text. -/
theorem onto (skip : Nat) (state : LexState) (chars : List Char)
    (h : Reaches text source pieces { state with pos := state.pos.through (chars.take skip) }
      (chars.drop skip)) :
    Reaches text source (pieces ++ (piecesOnto source [] skip state chars).1)
      (piecesOnto source [] skip state chars).2 [] := by
  induction chars generalizing pieces skip state with
  | nil =>
      rw [List.take_nil, List.drop_nil] at h
      rw [piecesOnto, List.reverse_nil, List.append_nil]
      exact h
  | cons c rest ih =>
      cases skip with
      | succ skip => exact ih skip (state.afterChar c) h
      | zero =>
          rw [piecesOnto]
          by_cases hspace : isWhiteSpace c = true
          · rw [if_pos hspace]
            exact ih 0 (state.afterSpace c) (h.space hspace)
          · rw [if_neg hspace, piecesOnto_eq, List.reverse_singleton, ← List.append_assoc]
            exact ih _ _ (h.lexeme (Bool.eq_false_iff.mpr hspace) rfl)

/-- Reading a text ends with its pieces, in its last state. -/
theorem atEnd (text : String) (source : SourceId) :
    Reaches text source (textPieces text source).1 (textPieces text source).2 [] :=
  onto 0 .initial text.toList .start

/-- The reader has stood in front of each piece behind it. -/
theorem of_append {before after : List Piece} {piece : Piece}
    (h : Reaches text source pieces state left) (hpieces : pieces = before ++ piece :: after) :
    ∃ place c rest, Reaches text source before place (c :: rest) ∧ isWhiteSpace c = false ∧
      piece = place.piece source c rest (Lexeme.read place.depths c rest) := by
  induction h generalizing after with
  | start => simp at hpieces
  | space _ _ ih => exact ih hpieces
  | @lexeme pieces state c rest lexeme h hspace hread ih =>
      rcases mem_append_cases hpieces with ⟨more, hfirst⟩ | ⟨more, rfl, hlast⟩
      · exact ih hfirst
      · obtain ⟨rfl, rfl, -⟩ := eq_of_singleton_eq_append hlast
        rw [List.append_nil]
        exact ⟨state, c, rest, h, hspace, by rw [hread]⟩

/-- Reading on from any place of the reader gives the rest of the pieces. -/
theorem resume (h : Reaches text source pieces state left) :
    textPieces text source =
      (pieces ++ (piecesOnto source [] 0 state left).1, (piecesOnto source [] 0 state left).2) := by
  induction h with
  | start => rfl
  | @space pieces state c rest _ hspace ih =>
      rw [ih, piecesOnto, if_pos hspace]
  | @lexeme pieces state c rest lexeme _ hspace hread ih =>
      rw [ih, piecesOnto, if_neg (Bool.eq_false_iff.mp hspace), piecesOnto_eq, hread,
        piecesOnto_skip, List.append_assoc]
      rfl

/-- Each piece behind the reader ends there, and is not empty. -/
theorem offset_lt (h : Reaches text source pieces state left) {piece : Piece}
    (hpiece : piece ∈ pieces) :
    piece.span.start.offset < piece.span.stop.offset ∧
      piece.span.stop.offset ≤ state.pos.offset := by
  induction h with
  | start => cases hpiece
  | @space pieces state c rest _ _ ih =>
      exact ⟨(ih hpiece).1, Nat.le_trans (ih hpiece).2 (Nat.le_of_lt (state.pos.offset_lt_after c))⟩
  | @lexeme pieces state c rest lexeme _ _ _ ih =>
      have hlt := state.pos.offset_lt_through c (rest.take lexeme.length)
      rcases List.mem_append.mp hpiece with hpiece | hpiece
      · exact ⟨(ih hpiece).1, Nat.le_trans (ih hpiece).2 (Nat.le_of_lt hlt)⟩
      · rw [List.mem_singleton.mp hpiece]
        exact ⟨hlt, Nat.le_refl _⟩

/-- The characters behind the reader lead to where it stands. -/
theorem exists_passed (h : Reaches text source pieces state left) :
    ∃ passed, text.toList = passed ++ left ∧ state.pos = Pos.start.through passed := by
  induction h with
  | start => exact ⟨[], rfl, rfl⟩
  | @space pieces state c rest _ _ ih =>
      obtain ⟨passed, htext, hpos⟩ := ih
      refine ⟨passed ++ [c], ?_, ?_⟩
      · rw [htext, List.append_cons]
      · rw [Pos.through_concat, ← hpos]
        rfl
  | @lexeme pieces state c rest lexeme _ _ _ ih =>
      obtain ⟨passed, htext, hpos⟩ := ih
      refine ⟨passed ++ c :: rest.take lexeme.length, ?_, ?_⟩
      · rw [htext, List.append_assoc, List.cons_append, List.take_append_drop]
      · rw [Pos.through_append, ← hpos]
        rfl

end Reaches

/-- The reader has stood in front of each token of a text, with the tokens before it behind. -/
theorem exists_reaches_of_tokens {text : String} {source : SourceId} {before after : List Token}
    {token : Token} (h : (lex text source).tokens = before ++ token :: after) :
    (∃ pieces place c rest, Reaches text source pieces place (c :: rest) ∧
      isWhiteSpace c = false ∧ before = pieces.filterMap Piece.token? ∧
      (place.piece source c rest (Lexeme.read place.depths c rest)).token? = some token) ∨
    (before = textTokens text source ∧ token = textEnd text source ∧ after = []) := by
  rw [lex_tokens] at h
  rcases mem_append_cases h with ⟨more, htokens⟩ | ⟨more, rfl, hend⟩
  · obtain ⟨pieces, others, hpieces, rfl, hothers⟩ := List.filterMap_eq_append_iff.mp htokens
    obtain ⟨skipped, piece, rest, rfl, hskipped, hpiece, -⟩ := List.filterMap_eq_cons_iff.mp hothers
    rw [← List.append_assoc] at hpieces
    obtain ⟨place, c, rest, hreaches, hspace, rfl⟩ := (Reaches.atEnd text source).of_append hpieces
    refine .inl ⟨_, place, c, rest, hreaches, hspace, ?_, hpiece⟩
    rw [List.filterMap_append, List.filterMap_eq_nil_iff.mpr hskipped, List.append_nil]
  · obtain ⟨rfl, rfl, rfl⟩ := eq_of_singleton_eq_append hend
    exact .inr ⟨List.append_nil _, rfl, rfl⟩

end DeclFile
