import Mathlib.Data.List.TakeWhile
import DeclFile.Proofs.Scanning
import DeclFile.Proofs.Tiling

/-! # Which tokens begin a line

A significant token knows whether a line ended between the token before it and itself. What
stands there is any mixture of white space, comments, directives and characters that begin no
token. A line ends there with a line feed, also within a comment, with a separator of lines or
paragraphs outside of comments, and with a directive.
-/

namespace DeclFile

open Unicode

/-! ## Ends of lines -/

/-- The character `c` stands in a text at an offset. -/
def StandsAt (text : String) (c : Char) (offset : Nat) : Prop :=
  ∃ before after, text.toList = before ++ c :: after ∧
    (String.ofList before).utf8ByteSize = offset

/-- The span includes the character at an offset. -/
def Span.Includes (span : Span) (offset : Nat) : Prop :=
  span.start.offset ≤ offset ∧ offset < span.stop.offset

/-- The character `c` at an offset ends a line: a line feed always does, a separator of lines or
paragraphs outside of comments and directives. -/
def BreaksAt (tokens : List Token) (c : Char) (offset : Nat) : Prop :=
  c = '\n' ∨ ((c = '\u2028' ∨ c = '\u2029') ∧
    ∀ token ∈ tokens, token.kind.isTrivia = true → ¬ token.span.Includes offset)

/-- A line ends between two offsets of a text that has these tokens. -/
inductive EndsLine (tokens : List Token) (text : String) (low high : Nat) : Prop
  | char {c : Char} {offset : Nat} (hchar : StandsAt text c offset)
      (hbreak : BreaksAt tokens c offset) (hlow : low ≤ offset) (hhigh : offset < high)
  | directive {token : Token} (hmem : token ∈ tokens) (hkind : token.kind = .directive)
      (hlow : low ≤ token.span.start.offset) (hhigh : token.span.stop.offset ≤ high)

/-- Where the last of some tokens ends, or the start of a text. -/
def stopAfter (tokens : List Token) : Nat :=
  (tokens.getLast?.map (·.span.stop.offset)).getD 0

theorem stopAfter_concat (tokens : List Token) (token : Token) :
    stopAfter (tokens ++ [token]) = token.span.stop.offset := by
  rw [stopAfter, List.getLast?_concat]
  rfl

theorem stopAfter_le {tokens : List Token} {high : Nat}
    (h : ∀ token ∈ tokens, token.span.stop.offset ≤ high) : stopAfter tokens ≤ high := by
  unfold stopAfter
  cases hlast : tokens.getLast? with
  | none => exact Nat.zero_le _
  | some token => exact h token (List.mem_of_getLast? hlast)

section

variable {text : String} {passed chunk rest : List Char} {tokens : List Token} {low : Nat}

/-- A character in front of the end of a chunk stands in front of the chunk or in it. -/
theorem standsAt_and_lt_iff (htext : text.toList = passed ++ chunk ++ rest) (c : Char)
    (offset : Nat) :
    StandsAt text c offset ∧ offset < (Pos.start.through (passed ++ chunk)).offset ↔
      (StandsAt text c offset ∧ offset < (Pos.start.through passed).offset) ∨
      ∃ inner more, chunk = inner ++ c :: more ∧
        offset = (Pos.start.through (passed ++ inner)).offset := by
  constructor
  · rintro ⟨⟨before, after, hsplit, rfl⟩, hlt⟩
    rw [← Pos.offset_start_through] at hlt ⊢
    rcases mem_append_cases (htext.symm.trans hsplit) with ⟨more, hfirst⟩ | ⟨more, rfl, -⟩
    · rcases mem_append_cases hfirst with ⟨more, rfl⟩ | ⟨inner, rfl, hchunk⟩
      · left
        refine ⟨⟨before, after, hsplit, (Pos.offset_start_through before).symm⟩, ?_⟩
        rw [Pos.through_append]
        exact Pos.offset_lt_through _ _ _
      · exact .inr ⟨inner, more, hchunk, rfl⟩
    · have hle := Pos.start.offset_through_le_of_prefix (List.prefix_append (passed ++ chunk) more)
      omega
  · rintro (⟨hstands, hlt⟩ | ⟨inner, more, rfl, rfl⟩)
    · have hle := Pos.start.offset_through_le_of_prefix (List.prefix_append passed chunk)
      exact ⟨hstands, by omega⟩
    · refine ⟨⟨passed ++ inner, more ++ rest, ?_, (Pos.offset_start_through _).symm⟩, ?_⟩
      · rw [htext]
        simp
      · rw [← List.append_assoc, Pos.through_append _ (passed ++ inner)]
        exact Pos.offset_lt_through _ _ _

/-- A separator is outside of the tokens that end before it. -/
theorem breaksAt_iff_isLineBreak {c : Char} {offset : Nat}
    (hbehind : ∀ token ∈ tokens, token.span.stop.offset ≤ offset) :
    BreaksAt tokens c offset ↔ LexState.isLineBreak c = true := by
  have hbare : ∀ token ∈ tokens, token.kind.isTrivia = true → ¬ token.span.Includes offset := by
    intro token htoken _ hincludes
    exact Nat.not_lt.mpr (hbehind token htoken) hincludes.2
  simp only [BreaksAt, LexState.isLineBreak, Bool.or_eq_true, beq_iff_eq, or_assoc]
  exact or_congr_right (and_iff_left hbare)

theorem EndsLine.mono {high high' : Nat} (h : EndsLine tokens text low high)
    (hhigh : high ≤ high') : EndsLine tokens text low high' := by
  cases h with
  | char hchar hbreak hlow hlt => exact .char hchar hbreak hlow (Nat.lt_of_lt_of_le hlt hhigh)
  | directive hmem hkind hlow hle => exact .directive hmem hkind hlow (Nat.le_trans hle hhigh)

/-- Tokens further on change nothing about a line that ended. -/
theorem EndsLine.append {more : List Token} {high : Nat} (h : EndsLine tokens text low high)
    (hmore : ∀ token ∈ more, high ≤ token.span.start.offset) :
    EndsLine (tokens ++ more) text low high := by
  cases h with
  | @char c offset hchar hbreak hlow hlt =>
      apply EndsLine.char hchar _ hlow hlt
      refine hbreak.imp_right fun ⟨hsep, hbare⟩ => ⟨hsep, fun token htoken htrivia => ?_⟩
      rcases List.mem_append.mp htoken with htoken | htoken
      · exact hbare token htoken htrivia
      · intro hincludes
        exact Nat.not_lt.mpr hincludes.1 (Nat.lt_of_lt_of_le hlt (hmore token htoken))
  | directive hmem hkind hlow hle =>
      exact .directive (List.mem_append_left _ hmem) hkind hlow hle

/-- Tokens further on end no line by themselves. -/
theorem EndsLine.of_append {more : List Token} {high : Nat}
    (h : EndsLine (tokens ++ more) text low high)
    (hmore : ∀ token ∈ more, high ≤ token.span.start.offset)
    (hdirective : ∀ token ∈ more, token.kind = .directive →
      token.span.start.offset < token.span.stop.offset) : EndsLine tokens text low high := by
  cases h with
  | char hchar hbreak hlow hlt =>
      apply EndsLine.char hchar _ hlow hlt
      exact hbreak.imp_right fun ⟨hsep, hbare⟩ =>
        ⟨hsep, fun token htoken => hbare token (List.mem_append_left _ htoken)⟩
  | directive hmem hkind hlow hle =>
      rcases List.mem_append.mp hmem with hmem | hmem
      · exact .directive hmem hkind hlow hle
      · have hstart := hmore _ hmem
        have hstop := hdirective _ hmem hkind
        omega

/-- Between the end of a token and itself no line ends. -/
theorem not_endsLine_self (hdirective : ∀ token ∈ tokens, token.kind = .directive →
      token.span.start.offset < token.span.stop.offset) : ¬ EndsLine tokens text low low := by
  intro h
  cases h with
  | char _ _ hlow hlt => omega
  | directive hmem hkind hlow hle =>
      have hstop := hdirective _ hmem hkind
      omega

/-- Up to behind a character outside of all tokens, a line ended before the character or ends
with it. -/
theorem endsLine_char {c : Char} (htext : text.toList = passed ++ [c] ++ rest)
    (hlow : low ≤ (Pos.start.through passed).offset)
    (hbehind : ∀ token ∈ tokens, token.span.stop.offset ≤ (Pos.start.through passed).offset) :
    EndsLine tokens text low (Pos.start.through (passed ++ [c])).offset ↔
      EndsLine tokens text low (Pos.start.through passed).offset ∨
        LexState.isLineBreak c = true := by
  have hle := Pos.start.offset_through_le_of_prefix (List.prefix_append passed [c])
  constructor
  · intro h
    cases h with
    | @char d offset hchar hbreak hfrom hlt =>
        rcases (standsAt_and_lt_iff htext d offset).mp ⟨hchar, hlt⟩ with
          ⟨hchar, hlt⟩ | ⟨inner, more, hinner, rfl⟩
        · exact .inl (.char hchar hbreak hfrom hlt)
        · obtain ⟨rfl, hcons⟩ | ⟨_, rfl, hnil⟩ := List.cons_eq_append_iff.mp hinner
          · obtain ⟨rfl, rfl⟩ := List.cons.inj hcons
            rw [List.append_nil] at hbreak
            exact .inr ((breaksAt_iff_isLineBreak hbehind).mp hbreak)
          · simp at hnil
    | directive hmem hkind hfrom _ => exact .inl (.directive hmem hkind hfrom (hbehind _ hmem))
  · rintro (h | hbreak)
    · exact h.mono hle
    · obtain ⟨hchar, hlt⟩ := (standsAt_and_lt_iff htext c _).mpr (.inr ⟨[], [], rfl, rfl⟩)
      rw [List.append_nil] at hchar hlt
      exact .char hchar ((breaksAt_iff_isLineBreak hbehind).mpr hbreak) hlow hlt

/-- Up to the end of a comment or directive, a line ended before it, ends within it or ends
because it is a directive. -/
theorem endsLine_trivia {token : Token} (htext : text.toList = passed ++ chunk ++ rest)
    (htrivia : token.kind.isTrivia = true)
    (hstart : token.span.start.offset = (Pos.start.through passed).offset)
    (hstop : token.span.stop.offset = (Pos.start.through (passed ++ chunk)).offset)
    (hlow : low ≤ (Pos.start.through passed).offset)
    (hbehind : ∀ token ∈ tokens, token.span.stop.offset ≤ (Pos.start.through passed).offset) :
    EndsLine (tokens ++ [token]) text low (Pos.start.through (passed ++ chunk)).offset ↔
      EndsLine tokens text low (Pos.start.through passed).offset ∨
        '\n' ∈ chunk ∨ token.kind = .directive := by
  have hle := Pos.start.offset_through_le_of_prefix (List.prefix_append passed chunk)
  constructor
  · intro h
    cases h with
    | @char c offset hchar hbreak hfrom hlt =>
        rcases (standsAt_and_lt_iff htext c offset).mp ⟨hchar, hlt⟩ with
          ⟨hchar, hbefore⟩ | ⟨inner, more, rfl, rfl⟩
        · refine .inl (.char hchar (hbreak.imp_right fun ⟨hsep, hbare⟩ => ⟨hsep, ?_⟩) hfrom hbefore)
          exact fun other hother => hbare other (List.mem_append_left _ hother)
        · rcases hbreak with rfl | ⟨-, hbare⟩
          · exact .inr (.inl List.mem_append_cons_self)
          · -- A separator inside of the trivia does not count.
            refine absurd ⟨?_, hstop ▸ hlt⟩ (hbare token List.mem_concat_self htrivia)
            rw [hstart]
            exact Pos.start.offset_through_le_of_prefix (List.prefix_append passed inner)
    | directive hmem hkind hfrom hto =>
        rcases List.mem_append.mp hmem with hmem | hmem
        · exact .inl (.directive hmem hkind hfrom (hbehind _ hmem))
        · cases List.mem_singleton.mp hmem
          exact .inr (.inr hkind)
  · rintro (h | hfeed | hkind)
    · apply (h.append _).mono hle
      intro other hother
      rw [List.mem_singleton.mp hother, hstart]
    · obtain ⟨inner, more, hchunk⟩ := List.append_of_mem hfeed
      obtain ⟨hchar, hlt⟩ :=
        (standsAt_and_lt_iff htext '\n' _).mpr (.inr ⟨inner, more, hchunk, rfl⟩)
      refine .char hchar (.inl rfl) (Nat.le_trans hlow ?_) hlt
      exact Pos.start.offset_through_le_of_prefix (List.prefix_append passed inner)
    · exact .directive List.mem_concat_self hkind (hstart ▸ hlow) (Nat.le_of_eq hstop)

end

/-! ## Comments -/

namespace Lexeme

/-- The characters of a lexeme, where the line of a comment or directive is not over yet. -/
structure Unbroken (rest : List Char) (lexeme : Lexeme) : Prop where
  length_eq : lexeme.kind = none → lexeme.length = 0
  not_mem : lexeme.kind = some .lineComment ∨ lexeme.kind = some .directive →
    '\n' ∉ rest.take lexeme.length

theorem unbroken_of_kind {lexeme : Lexeme} {kind : Kind} (hkind : lexeme.kind = some kind)
    (htrivia : kind.isTrivia = false) (rest : List Char) : lexeme.Unbroken rest := by
  constructor
  · rw [hkind]
    exact nofun
  · rw [hkind]
    rintro (⟨⟨⟩⟩ | ⟨⟨⟩⟩) <;> cases htrivia

theorem unbroken_lineComment (depths : List Nat) (more : List Char) :
    (lineComment depths more).Unbroken ('/' :: more) := by
  have htake : '\n' ∉ ('/' :: more).take (1 + (more.takeWhile (· != '\n')).length) := by
    rw [Nat.add_comm, List.take_succ_cons, ← List.prefix_iff_eq_take.mp (List.takeWhile_prefix _)]
    intro hmem
    rcases List.mem_cons.mp hmem with h | hmem
    · cases h
    · simpa using List.mem_takeWhile_imp hmem
  unfold lineComment
  dsimp only
  split <;> exact ⟨nofun, fun _ => htake⟩

theorem unbroken_read (depths : List Nat) (c : Char) (rest : List Char) :
    (read depths c rest).Unbroken rest := by
  apply read_cases
  case ordinary =>
    intro lexeme h
    obtain ⟨kind, hkind, htrivia, -⟩ := h.kind_eq
    exact unbroken_of_kind hkind htrivia rest
  case openBrace =>
    unfold openBrace
    split <;> exact unbroken_of_kind rfl rfl rest
  case closeBrace =>
    unfold closeBrace template
    repeat' split
    all_goals exact unbroken_of_kind rfl rfl rest
  case template =>
    intro body
    unfold template
    split <;> exact unbroken_of_kind rfl rfl rest
  case lineComment =>
    rintro more rfl
    exact unbroken_lineComment depths more
  case blockComment => exact fun _ _ => ⟨nofun, by rintro (⟨⟨⟩⟩ | ⟨⟨⟩⟩)⟩
  case unexpected => exact ⟨fun _ => rfl, by rintro (⟨⟨⟩⟩ | ⟨⟨⟩⟩)⟩

end Lexeme

/-! ## Dropping trivia -/

namespace TokenStream

/-- Whether trivia at the end of some raw tokens held the end of a line. -/
def pendingAfter (raw : List Token) : Bool :=
  raw.foldl (fun pending token => if token.kind.isTrivia then pendsAfter pending token else false)
    false

theorem pendingAfter_concat (raw : List Token) (token : Token) :
    pendingAfter (raw ++ [token]) =
      if token.kind.isTrivia then pendsAfter (pendingAfter raw) token else false := by
  rw [pendingAfter, List.foldl_concat]
  rfl

/-- One more raw token is dropped or kept with the ends of lines before it. -/
theorem significantOnto_snoc (raw : List Token) (token : Token) :
    significantOnto [] false (raw ++ [token]) = significantOnto [] false raw ++
      if token.kind.isTrivia then []
      else [{ token with newlineBefore := token.newlineBefore || pendingAfter raw }] := by
  suffices h : ∀ pending, significantOnto [] pending (raw ++ [token]) =
      significantOnto [] pending raw ++
        if token.kind.isTrivia then []
        else [{ token with newlineBefore := token.newlineBefore || raw.foldl (fun pending token =>
          if token.kind.isTrivia then pendsAfter pending token else false) pending }] from h false
  induction raw with
  | nil =>
      intro pending
      simp only [List.nil_append, significantOnto, List.foldl_nil, List.reverse_nil]
      split <;> rfl
  | cons first raw ih =>
      intro pending
      simp only [List.cons_append, significantOnto, List.foldl_cons]
      split
      · exact ih _
      · rw [significantOnto_eq, ih, significantOnto_eq [_] false raw, List.append_assoc]

/-- Each token kept is a raw one, with the ends of lines in the trivia before it. -/
theorem exists_raw_of_significantOnto {raw before after : List Token} {token : Token}
    (h : significantOnto [] false raw = before ++ token :: after) :
    ∃ front kept behind, raw = front ++ kept :: behind ∧ kept.kind.isTrivia = false ∧
      before = significantOnto [] false front ∧
      token = { kept with newlineBefore := kept.newlineBefore || pendingAfter front } := by
  induction raw using List.reverseRecOn generalizing after with
  | nil => simp [significantOnto] at h
  | append_singleton raw last ih =>
      rw [significantOnto_snoc] at h
      rcases mem_append_cases h with ⟨more, hfirst⟩ | ⟨more, rfl, hlast⟩
      · obtain ⟨front, kept, behind, rfl, hkept⟩ := ih hfirst
        exact ⟨front, kept, behind ++ [last], by simp, hkept⟩
      · split at hlast
        · simp at hlast
        · next hsignificant =>
          obtain ⟨rfl, rfl, -⟩ := eq_of_singleton_eq_append hlast
          exact ⟨raw, last, [], rfl, Bool.eq_false_iff.mpr hsignificant, List.append_nil _, rfl⟩

end TokenStream

/-! ## Whole texts -/

namespace Reaches

variable {text : String} {source : SourceId} {pieces : List Piece} {state : LexState}
  {left : List Char}

theorem token_offset_lt (h : Reaches text source pieces state left) {token : Token}
    (htoken : token ∈ pieces.filterMap Piece.token?) :
    token.span.start.offset < token.span.stop.offset ∧
      token.span.stop.offset ≤ state.pos.offset := by
  obtain ⟨piece, hpiece, hsome⟩ := List.mem_filterMap.mp htoken
  obtain ⟨kind, -, rfl⟩ := Option.map_eq_some_iff.mp hsome
  exact h.offset_lt hpiece

/-- The last significant token ends behind the reader. -/
theorem stopAfter_le (h : Reaches text source pieces state left) :
    stopAfter (TokenStream.significantOnto [] false (pieces.filterMap Piece.token?)) ≤
      state.pos.offset := by
  apply DeclFile.stopAfter_le
  intro token htoken
  have hspan := (TokenStream.map_span_significantOnto_sublist false _).subset
    (List.mem_map_of_mem (f := Token.span) htoken)
  obtain ⟨raw, hraw, heq⟩ := List.mem_map.mp hspan
  rw [← heq]
  exact (h.token_offset_lt hraw).2

theorem behind (h : Reaches text source pieces state left) :
    ∀ token ∈ pieces.filterMap Piece.token?, token.span.stop.offset ≤ state.pos.offset :=
  fun _ htoken => (h.token_offset_lt htoken).2

end Reaches

/-- What is pending after some tokens and in a state is whether a line ended since the last
significant one. -/
def LexState.Pends (state : LexState) (text : String) (tokens : List Token) : Prop :=
  (TokenStream.pendingAfter tokens || state.newline) = true ↔
    EndsLine tokens text (stopAfter (TokenStream.significantOnto [] false tokens)) state.pos.offset

namespace Reaches

variable {c : Char} {rest : List Char} {lexeme : Lexeme} {kind : Kind}

/-- A character outside of all tokens ends a line if it is a line break. -/
theorem endsLine_after (h : Reaches text source pieces state (c :: rest)) :
    EndsLine (pieces.filterMap Piece.token?) text
        (stopAfter (TokenStream.significantOnto [] false (pieces.filterMap Piece.token?)))
        (state.pos.after c).offset ↔
      EndsLine (pieces.filterMap Piece.token?) text
          (stopAfter (TokenStream.significantOnto [] false (pieces.filterMap Piece.token?)))
          state.pos.offset ∨
        LexState.isLineBreak c = true := by
  obtain ⟨passed, htext, hpos⟩ := h.exists_passed
  have hlow := h.stopAfter_le
  have hbehind := h.behind
  rw [hpos] at hlow hbehind
  have hends := endsLine_char (htext.trans (List.append_cons _ _ _)) hlow hbehind
  rwa [Pos.through_concat, ← hpos] at hends

theorem pends_space (h : Reaches text source pieces state (c :: rest))
    (ih : state.Pends text (pieces.filterMap Piece.token?)) :
    (state.afterSpace c).Pends text (pieces.filterMap Piece.token?) := by
  apply Iff.trans _ h.endsLine_after.symm
  rw [← or_congr_left ih]
  simp only [LexState.afterSpace, Bool.or_eq_true, or_assoc]

/-- A character that begins no token leaves pending what was. -/
theorem pends_unexpected (h : Reaches text source pieces state (c :: rest))
    (hspace : isWhiteSpace c = false) (hkind : lexeme.kind = none) (hlength : lexeme.length = 0)
    (ih : state.Pends text (pieces.filterMap Piece.token?)) :
    (state.past c rest lexeme).Pends text (pieces.filterMap Piece.token?) := by
  have hbreak : LexState.isLineBreak c ≠ true := by
    intro hbreak
    simp only [LexState.isLineBreak, Bool.or_eq_true, beq_iff_eq] at hbreak
    rcases hbreak with (rfl | rfl) | rfl <;> cases hspace
  have hends := h.endsLine_after
  rw [or_iff_left hbreak] at hends
  have hpos : (state.past c rest lexeme).pos = state.pos.after c := by
    rw [LexState.past, hlength]
    rfl
  have hnewline : (state.past c rest lexeme).newline = state.newline := by
    rw [LexState.past, LexState.afterLexeme, hkind]
  rw [LexState.Pends, hpos, hnewline, hends]
  exact ih

/-- A line ends within a comment or directive if the reader takes it to. -/
theorem newline_past_iff {state : LexState} (hspace : isWhiteSpace c = false)
    (hread : Lexeme.read state.depths c rest = lexeme) (hkind : lexeme.kind = some kind)
    (htrivia : kind.isTrivia = true) :
    (state.past c rest lexeme).newline = true ↔ '\n' ∈ c :: rest.take lexeme.length := by
  have hfirst : '\n' ≠ c := by
    rintro rfl
    cases hspace
  have hunbroken := Lexeme.unbroken_read state.depths c rest
  rw [hread] at hunbroken
  rw [List.mem_cons, or_iff_right hfirst, LexState.past, LexState.afterLexeme, hkind]
  cases kind with
  | blockComment => exact List.contains_iff_mem
  | lineComment => exact iff_of_false nofun (hunbroken.not_mem (.inl hkind))
  | directive => exact iff_of_false nofun (hunbroken.not_mem (.inr hkind))
  | _ => cases htrivia

/-- A comment or directive leaves pending what was and the ends of lines within it. -/
theorem pends_trivia (h : Reaches text source pieces state (c :: rest))
    (hspace : isWhiteSpace c = false) (hread : Lexeme.read state.depths c rest = lexeme)
    (hkind : lexeme.kind = some kind) (htrivia : kind.isTrivia = true)
    (ih : state.Pends text (pieces.filterMap Piece.token?)) :
    (state.past c rest lexeme).Pends text
      (pieces.filterMap Piece.token? ++ [state.token source c rest lexeme kind]) := by
  obtain ⟨passed, htext, hpos⟩ := h.exists_passed
  have hlow := h.stopAfter_le
  have hbehind := h.behind
  rw [hpos] at hlow hbehind
  rw [← List.take_append_drop lexeme.length rest, ← List.cons_append, ← List.append_assoc] at htext
  have hstop : (state.past c rest lexeme).pos =
      Pos.start.through (passed ++ c :: rest.take lexeme.length) := by
    rw [Pos.through_append, ← hpos]
    rfl
  have hends : EndsLine (pieces.filterMap Piece.token? ++ [state.token source c rest lexeme kind])
      text (stopAfter (TokenStream.significantOnto [] false (pieces.filterMap Piece.token?)))
        (state.past c rest lexeme).pos.offset ↔ _ :=
    hstop ▸ endsLine_trivia htext htrivia (congrArg Pos.offset hpos) (congrArg Pos.offset hstop)
      hlow hbehind
  have htrivial : (state.token source c rest lexeme kind).kind.isTrivia = true := htrivia
  unfold LexState.Pends at ih ⊢
  rw [TokenStream.significantOnto_snoc, TokenStream.pendingAfter_concat,
    if_pos htrivial, if_pos htrivial, List.append_nil, hends, ← hpos, ← ih,
    ← newline_past_iff hspace hread hkind htrivia]
  simp only [TokenStream.pendsAfter, LexState.token, LexState.piece, Bool.or_eq_true, beq_iff_eq]
  exact or_assoc.trans (or_congr_right or_comm)

/-- After a significant token nothing is pending. -/
theorem pends_significant (h : Reaches text source pieces state (c :: rest))
    (hkind : lexeme.kind = some kind) (hsignificant : kind.isTrivia = false) :
    (state.past c rest lexeme).Pends text
      (pieces.filterMap Piece.token? ++ [state.token source c rest lexeme kind]) := by
  have hsignificant : (state.token source c rest lexeme kind).kind.isTrivia ≠ true :=
    Bool.eq_false_iff.mp hsignificant
  have hnewline : (state.past c rest lexeme).newline = false := by
    rw [LexState.past, LexState.afterLexeme, hkind]
    cases kind <;> first | rfl | cases hsignificant rfl
  have hdirective : ∀ token ∈ pieces.filterMap Piece.token? ++
      [state.token source c rest lexeme kind], token.kind = .directive →
        token.span.start.offset < token.span.stop.offset := by
    intro token htoken hkind
    rcases List.mem_append.mp htoken with htoken | htoken
    · exact (h.token_offset_lt htoken).1
    · rw [List.mem_singleton.mp htoken]
      exact state.pos.offset_lt_through c _
  rw [LexState.Pends, TokenStream.significantOnto_snoc, TokenStream.pendingAfter_concat,
    if_neg hsignificant, if_neg hsignificant, stopAfter_concat, hnewline]
  exact iff_of_false nofun (not_endsLine_self hdirective)

/-- What is pending where the reader stands is whether a line ended since the last significant
token. -/
theorem pends (h : Reaches text source pieces state left) :
    state.Pends text (pieces.filterMap Piece.token?) := by
  induction h with
  | start => exact iff_of_false (by decide) (not_endsLine_self nofun)
  | @space pieces state c rest h _ ih => exact h.pends_space ih
  | @lexeme pieces state c rest lexeme h hspace hread ih =>
      cases hkind : lexeme.kind with
      | none =>
          rw [filterMap_token?_none pieces hkind]
          have hunbroken := Lexeme.unbroken_read state.depths c rest
          rw [hread] at hunbroken
          exact h.pends_unexpected hspace hkind (hunbroken.length_eq hkind) ih
      | some kind =>
          rw [filterMap_token?_some pieces hkind]
          cases htrivia : kind.isTrivia with
          | true => exact h.pends_trivia hspace hread hkind htrivia ih
          | false => exact h.pends_significant hkind htrivia

end Reaches

section

variable {text : String} {source : SourceId}

/-- The stream of a text has the significant tokens among all its tokens. -/
theorem tokens_textStream (text : String) (source : SourceId) :
    (textStream text source).tokens =
      TokenStream.significantOnto [] false (lex text source).tokens := by
  have hend : (textEnd text source).kind = .endOfText := rfl
  have hsignificant : (textEnd text source).kind.isTrivia ≠ true := nofun
  have hsnoc := TokenStream.significantOnto_snoc (textTokens text source) (textEnd text source)
  rw [if_neg hsignificant] at hsnoc
  simp [TokenStream.tokens, textStream, TokenStream.ofTokens, lex_tokens, hsnoc, hend]

/-- A raw token knows whether a line ended since the last significant token, apart from what
the trivia in between says. -/
theorem newlineBefore_raw {front behind : List Token} {kept : Token}
    (h : (lex text source).tokens = front ++ kept :: behind) :
    (kept.newlineBefore || TokenStream.pendingAfter front) = true ↔
      EndsLine front text (stopAfter (TokenStream.significantOnto [] false front))
        kept.span.start.offset := by
  rw [Bool.or_comm]
  rcases exists_reaches_of_tokens h with
    ⟨pieces, place, c, rest, hreaches, -, rfl, htoken⟩ | ⟨rfl, rfl, -⟩
  · obtain ⟨kind, -, rfl⟩ := Option.map_eq_some_iff.mp htoken
    exact hreaches.pends
  · exact (Reaches.atEnd text source).pends

/-- A significant token of a text begins a line just if a line ended since the significant
token before it or since the start of the text. -/
theorem newlineBefore_iff_endsLine {before after : List Token} {token : Token}
    (h : (textStream text source).tokens = before ++ token :: after) :
    token.newlineBefore = true ↔
      EndsLine (lex text source).tokens text (stopAfter before) token.span.start.offset := by
  rw [tokens_textStream] at h
  obtain ⟨front, kept, behind, hraw, -, rfl, rfl⟩ := TokenStream.exists_raw_of_significantOnto h
  have hbehind : ∀ other ∈ kept :: behind, kept.span.start.offset ≤ other.span.start.offset := by
    have hinOrder := inOrder_lex text source
    have hpairwise := hinOrder.pairwise
    rw [hraw, List.map_append, List.map_cons] at hpairwise
    have hfollow := (List.pairwise_cons.mp (List.pairwise_append.mp hpairwise).2.1).1
    have hforward : kept.span.start.offset ≤ kept.span.stop.offset := by
      apply hinOrder.forward
      rw [hraw]
      exact List.mem_map_of_mem List.mem_append_cons_self
    intro other hother
    rcases List.mem_cons.mp hother with rfl | hother
    · exact Nat.le_refl _
    · exact Nat.le_trans hforward (hfollow _ (List.mem_map_of_mem hother))
  have hdirective : ∀ other ∈ kept :: behind, other.kind = .directive →
      other.span.start.offset < other.span.stop.offset := by
    intro other hother hkind
    apply (lex_tiles text source).tokens_nonempty other
    · rw [hraw]
      exact List.mem_append_right _ hother
    · rw [hkind]
      exact nofun
  rw [hraw]
  apply (newlineBefore_raw hraw).trans
  exact ⟨fun h => h.append hbehind, fun h => h.of_append hbehind hdirective⟩

end

/-- A line ends within a comment, and a character that begins no token follows. -/
def brokenGap : String := "a /*\n*/ # b"

/-- The second name begins a line. -/
theorem newlineBefore_iff_endsLine_brokenGap :
    let first : Token := ⟨.identifier, "a", ⟨⟨0⟩, ⟨0, 1, 1⟩, ⟨1, 1, 2⟩⟩, false⟩
    let second : Token := ⟨.identifier, "b", ⟨⟨0⟩, ⟨10, 2, 6⟩, ⟨11, 2, 7⟩⟩, true⟩
    let last : Token := ⟨.endOfText, "", ⟨⟨0⟩, ⟨11, 2, 7⟩, ⟨11, 2, 7⟩⟩, false⟩
    (textStream brokenGap ⟨0⟩).tokens = [first] ++ second :: [last] ∧
      (second.newlineBefore = true ↔
        EndsLine (lex brokenGap ⟨0⟩).tokens brokenGap (stopAfter [first])
          second.span.start.offset) := by
  intro first second last
  have htokens : (textStream brokenGap ⟨0⟩).tokens = [first] ++ second :: [last] := by
    decide +kernel
  exact ⟨htokens, newlineBefore_iff_endsLine htokens⟩

end DeclFile
