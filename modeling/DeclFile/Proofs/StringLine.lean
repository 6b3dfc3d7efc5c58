import DeclFile.Proofs.Quoted
import DeclFile.Proofs.Seam
import DeclFile.Proofs.Tiling

/-! # String literals and the ends of lines

A string runs over the end of a line only where its escapes take the line feed: at a continued
line, and in an escape whose brace is still open. A string that is not closed stops in front of
the line feed, and what follows a string is read from there on without regard to it.
-/

namespace DeclFile

open Unicode

/-- What stands in a string in front of a line feed that the string runs over: the backslash of
a continued line, or an escape with digits in braces that has not met its closing brace. -/
inductive RunsOn : List Char → Prop where
  | continued (front : List Char) : RunsOn (front ++ ['\\'])
  | brace (front : List Char) {inside : List Char} (h : '\x7d' ∉ inside) :
      RunsOn (front ++ '\\' :: 'u' :: '\x7b' :: inside)

theorem RunsOn.append {chars : List Char} (h : RunsOn chars) (front : List Char) :
    RunsOn (front ++ chars) := by
  cases h with
  | continued more => exact List.append_assoc front more _ ▸ .continued _
  | brace more hinside => exact List.append_assoc front more _ ▸ .brace _ hinside

/-- All line feeds in a part of a text are such that a string runs over them. -/
def StaysOpen (chars : List Char) : Prop :=
  ∀ front back, chars = front ++ '\n' :: back → RunsOn front

namespace StaysOpen

theorem nil : StaysOpen [] := by
  intro front back h
  cases front <;> cases h

theorem singleton {c : Char} (h : c ≠ '\n') : StaysOpen [c] := by
  intro front back hchars
  obtain ⟨-, rfl, -⟩ := eq_of_singleton_eq_append hchars
  exact absurd rfl h

theorem append {first second : List Char} (hfirst : StaysOpen first)
    (hsecond : StaysOpen second) : StaysOpen (first ++ second) := by
  intro front back h
  rcases mem_append_cases h with ⟨more, hchars⟩ | ⟨more, rfl, hchars⟩
  · exact hfirst _ _ hchars
  · exact (hsecond _ _ hchars).append first

end StaysOpen

/-! ## Line feeds in escapes -/

namespace Escape

/-- What is taken for digits has no line feed in it. -/
theorem newline_not_mem_take (rest : List Char) (n : Nat) :
    '\n' ∉ rest.take ((rest.take n).takeWhile isHexDigit).length := by
  rw [← List.prefix_iff_eq_take.mp ((List.takeWhile_prefix _).trans (List.take_prefix n rest))]
  intro hmem
  exact absurd (List.mem_takeWhile_imp hmem) (by decide)

/-- A line feed behind an open brace stands in front of the closing one. -/
theorem brace_not_mem_of_take {rest front back : List Char} {n : Nat}
    (hn : n ≤ (rest.takeWhile (· != '\x7d')).length + 1)
    (h : rest.take n = front ++ '\n' :: back) : '\x7d' ∉ front := by
  intro hbrace
  obtain ⟨before, after, rfl⟩ := List.append_of_mem hbrace
  have hrest : rest = before ++ '\x7d' :: (after ++ '\n' :: back ++ rest.drop n) := by
    rw [← List.cons_append, ← List.cons_append, ← List.append_assoc, ← List.append_assoc, ← h,
      List.take_append_drop]
  have hdigits : (rest.takeWhile (· != '\x7d')).length ≤ before.length := by
    rw [hrest, List.takeWhile_append, List.takeWhile_cons_of_neg (by simp), List.append_nil]
    have hle := (List.takeWhile_sublist (l := before) (· != '\x7d')).length_le
    split <;> omega
  have hlength := congrArg List.length h
  rw [List.length_take] at hlength
  simp only [List.length_append, List.length_cons] at hlength
  omega

/-- Apart from a line feed right behind its backslash, an escape takes one only if it has opened
a brace and not closed it. -/
theorem staysOpen_take_read (rest : List Char) :
    StaysOpen ('\\' :: rest.take (read rest).length) := by
  intro front back h
  rcases front with _ | ⟨slash, front⟩
  · cases h
  obtain ⟨rfl, hescape⟩ := List.cons.inj h
  rcases front with _ | ⟨c, front⟩
  · exact .continued []
  rcases rest with _ | ⟨d, rest⟩
  · cases hescape
  obtain ⟨more, hmore⟩ := Nat.exists_eq_add_of_lt (length_read_pos d rest)
  rw [hmore, Nat.zero_add, List.take_succ_cons] at hescape
  obtain ⟨rfl, htake⟩ := List.cons.inj hescape
  have hmem : '\n' ∈ rest.take more := htake ▸ List.mem_append_right _ List.mem_cons_self
  by_cases hx : d = 'x'
  · subst hx
    rw [read_x, length_numbered, Nat.zero_add, Nat.add_comm] at hmore
    rw [← Nat.add_right_cancel hmore] at hmem
    exact absurd hmem (newline_not_mem_take rest 2)
  by_cases hu : d = 'u'
  · subst hu
    rcases rest with _ | ⟨e, rest⟩
    · rw [List.take_nil] at hmem
      cases hmem
    by_cases he : e = '\x7b'
    · subst he
      rcases more with _ | more
      · cases hmem
      rcases front with _ | ⟨e, front⟩
      · cases htake
      rw [List.take_succ_cons] at htake
      obtain ⟨rfl, hdigits⟩ := List.cons.inj htake
      rw [read_brace, length_numbered] at hmore
      exact .brace [] (brace_not_mem_of_take (by omega) hdigits)
    · rw [read_u_of_ne he, length_numbered, Nat.zero_add, Nat.add_comm] at hmore
      rw [← Nat.add_right_cancel hmore] at hmem
      exact absurd hmem (newline_not_mem_take (e :: rest) 4)
  · have hone := length_read_le [d]
    rw [← read_cons_of_ne hx hu rest [], hmore, List.length_singleton] at hone
    obtain rfl : more = 0 := by omega
    cases hmem

end Escape

/-! ## Line feeds in strings -/

/-- The body takes what is `inside` and leaves `rest`: it runs over line feeds only in its
escapes, and if it is not closed, a line feed or nothing follows. -/
structure Body.EndsAtLine (body : Body) (inside rest : List Char) : Prop where
  length_eq : body.length = inside.length
  staysOpen : StaysOpen inside
  broken : body.ending = .broken → rest = [] ∨ ∃ more, rest = '\n' :: more

theorem Body.EndsAtLine.behind {body : Body} {inside rest : List Char}
    (h : body.EndsAtLine inside rest) {unit : List Char} (hunit : StaysOpen unit)
    (text : List Char) :
    (body.behind text unit.length).EndsAtLine (unit ++ inside) rest where
  length_eq := by rw [Body.behind, h.length_eq, List.length_append]
  staysOpen := hunit.append h.staysOpen
  broken := h.broken

/-- A string is read up to its quote or up to the end of its line. -/
theorem Body.readString_endsAtLine {quote : Char} (hquote : quote ≠ '\n') (chars : List Char) :
    ∃ inside rest, chars = inside ++ rest ∧ (readString quote 0 chars).EndsAtLine inside rest := by
  induction hn : chars.length using Nat.strong_induction_on generalizing chars with
  | _ n ih =>
    subst hn
    rcases chars with _ | ⟨c, chars⟩
    · exact ⟨[], [], rfl, rfl, .nil, fun _ => .inl rfl⟩
    by_cases hslash : c = '\\'
    · subst hslash
      have hlength := Escape.length_read_le chars
      have hescape : Escape.read (chars.take (Escape.read chars).length ++
          chars.drop (Escape.read chars).length) =
            ⟨(Escape.read chars).text, (chars.take (Escape.read chars).length).length⟩ := by
        rw [List.take_append_drop, List.length_take, Nat.min_eq_left hlength]
      have hread : readString quote 0 ('\\' :: _) = _ := readString_escape _ hescape
      rw [List.take_append_drop] at hread
      have hshort : (chars.drop (Escape.read chars).length).length < ('\\' :: chars).length := by
        rw [List.length_drop, List.length_cons]
        omega
      obtain ⟨inside, rest, hchars, hends⟩ := ih _ hshort _ rfl
      refine ⟨_, rest, ?_, hread ▸ hends.behind (Escape.staysOpen_take_read chars) _⟩
      rw [List.append_assoc, ← hchars, List.cons_append, List.take_append_drop]
    by_cases hclose : c = quote
    · subst hclose
      refine ⟨[c], chars, rfl, ?_⟩
      rw [readString, if_neg hslash, if_pos rfl]
      exact ⟨rfl, .singleton hquote, fun h => by cases h⟩
    by_cases hfeed : c = '\n'
    · subst hfeed
      refine ⟨[], _, rfl, ?_⟩
      rw [readString, if_neg hslash, if_neg hclose, if_pos rfl]
      exact ⟨rfl, .nil, fun _ => .inr ⟨chars, rfl⟩⟩
    · obtain ⟨inside, rest, rfl, hends⟩ := ih _ (Nat.lt_succ_self _) chars rfl
      refine ⟨c :: inside, rest, rfl, ?_⟩
      rw [readString_char hslash hclose hfeed]
      exact hends.behind (StaysOpen.singleton hfeed) [c]

namespace Lexeme

variable {depths : List Nat} {c : Char} {rest : List Char}

/-- Only a quote begins a string literal. -/
theorem kind_read_ne_string (hdouble : c ≠ '"') (hsingle : c ≠ '\x27') :
    (read depths c rest).kind ≠ some .stringLiteral := by
  have htemplate {depths : List Nat} {whole part : Kind} {body : Body}
      (hwhole : whole ≠ .stringLiteral) (hpart : part ≠ .stringLiteral) :
      (template depths whole part body).kind ≠ some .stringLiteral := by
    unfold template
    split <;> simpa
  have hnumber (first : Char) : (number depths first rest).kind ≠ some .stringLiteral := by
    unfold number
    split <;> simp [plain]
  unfold read
  split
  · simp [plain]
  split
  · unfold openBrace
    split <;> simp [plain]
  · unfold closeBrace
    split
    · exact htemplate (by simp) (by simp)
    all_goals simp [plain]
  · unfold dot
    repeat' split
    all_goals first | exact hnumber _ | simp [plain]
  · split <;> simp [plain]
  · split
    · next more =>
        have hkind : (lineComment depths more).kind = _ ∨ _ := kind_lineComment more
        rcases hkind with hkind | hkind
        all_goals
          rw [hkind]
          simp
    · simp [blockComment]
    · simp [plain]
  · exact absurd rfl hdouble
  · exact absurd rfl hsingle
  · exact htemplate (by simp) (by simp)
  · split <;> simp [plain, unexpected]
  · split
    · exact hnumber _
    split
    · unfold word plain
      dsimp only
      split <;> simp
    · simp [unexpected]

/-- A string literal begins with its quote, and its body follows. -/
theorem eq_string_of_kind (h : (read depths c rest).kind = some .stringLiteral) :
    c ≠ '\n' ∧ read depths c rest = string depths (Body.readString c 0 rest) := by
  by_cases hdouble : c = '"'
  · subst hdouble
    exact ⟨by decide, rfl⟩
  by_cases hsingle : c = '\x27'
  · subst hsingle
    exact ⟨by decide, rfl⟩
  · exact absurd h (kind_read_ne_string hdouble hsingle)

end Lexeme

/-! ## Texts -/

/-- A piece of a text is told from the others by its span. -/
theorem eq_of_span_eq {text : String} {source : SourceId} {first second : Piece}
    (hfirst : first ∈ (textPieces text source).1) (hsecond : second ∈ (textPieces text source).1)
    (h : first.span = second.span) : first = second := by
  by_contra hne
  have hsize := (offset_lt_of_mem_textPieces hsecond).1
  rcases precedes_of_mem_textPieces hfirst hsecond hne with hbefore | hafter
  · rw [h] at hbefore
    exact absurd hbefore (Nat.not_le_of_lt hsize)
  · rw [h] at hafter
    exact absurd hafter (Nat.not_le_of_lt hsize)

/-- A string literal runs over the end of a line only at a continued line or in an escape whose
brace is still open there. If it is not closed, its line or the text ends behind it, and what
follows is read as from the beginning but for the place and the open substitutions. -/
theorem stringLiteral_endsAtLine {text : String} {source : SourceId} {before after : List Token}
    {token : Token} (h : (lex text source).tokens = before ++ token :: after)
    (hkind : token.kind = .stringLiteral) :
    ∃ passed inside left, text.toList = passed ++ inside ++ left ∧
      token.span = ⟨source, Pos.start.through passed, Pos.start.through (passed ++ inside)⟩ ∧
      (∀ front back, inside = front ++ '\n' :: back → RunsOn front) ∧
      (⟨.unterminatedString, token.span⟩ ∈ (lex text source).errors →
        left = [] ∨ ∃ more, left = '\n' :: more) ∧
      after = (lexFrom source 0
        ⟨Pos.start.through (passed ++ inside), openSubstitutions before, false⟩ left).tokens := by
  rcases exists_reaches_of_tokens h with
    ⟨pieces, place, c, rest, hreaches, hspace, rfl, htoken⟩ | ⟨-, rfl, -⟩
  · obtain ⟨kind, hread, rfl⟩ := Option.map_eq_some_iff.mp htoken
    obtain rfl : kind = .stringLiteral := hkind
    obtain ⟨hfeed, hstring⟩ := Lexeme.eq_string_of_kind hread
    obtain ⟨inside, left, rfl, hends⟩ := Body.readString_endsAtLine hfeed rest
    obtain ⟨passed, htext, hpos⟩ := hreaches.exists_passed
    rw [hstring] at h htoken ⊢
    have hlength : (Lexeme.string place.depths
        (Body.readString c 0 (inside ++ left))).length = inside.length := hends.length_eq
    have hnext := hreaches.lexeme hspace hstring
    refine ⟨passed, c :: inside, left, by rw [htext, List.append_assoc]; rfl, ?_, ?_, ?_, ?_⟩
    · rw [LexState.piece, hlength, List.take_left, Pos.through_append, ← hpos]
    · exact (StaysOpen.singleton hfeed).append hends.staysOpen
    · intro herror
      obtain ⟨piece, hpiece, hfault⟩ := List.mem_filterMap.mp herror
      obtain ⟨fault, hsome, herror⟩ := Option.map_eq_some_iff.mp hfault
      have hmem : place.piece source c (inside ++ left) (Lexeme.string place.depths
          (Body.readString c 0 (inside ++ left))) ∈ (textPieces text source).1 := by
        rw [hnext.resume]
        exact List.mem_append_left _ List.mem_concat_self
      obtain rfl := eq_of_span_eq hpiece hmem (congrArg LexicalError.span herror)
      refine hends.broken ?_
      by_contra hending
      rw [LexState.piece, Lexeme.string, if_neg hending] at hsome
      cases hsome
    · have htokens := congrArg Lexed.tokens hnext.lex_eq
      rw [h, Lexed.after, filterMap_token?_some pieces rfl, List.append_assoc,
        List.singleton_append] at htokens
      have hafter := (List.cons.inj (List.append_cancel_left htokens)).2
      rw [hlength, List.drop_left] at hafter
      rw [hafter, hreaches.openSubstitutions_eq, Pos.through_append, ← hpos, LexState.past, hlength,
        List.take_left]
      rfl
  · cases hkind

/-- A string that is continued once and not closed, and a line behind it. -/
def unclosedString : String := "\"a\\\nb\nc"

/-- The string of that text: it stops at the end of the second line. -/
def unclosedStringToken : Token :=
  ⟨.stringLiteral, "ab", ⟨⟨0⟩, ⟨0, 1, 1⟩, ⟨5, 2, 2⟩⟩, false⟩

theorem stringLiteral_endsAtLine_unclosedString :
    (lex unclosedString ⟨0⟩).tokens =
      [] ++ unclosedStringToken :: (lex unclosedString ⟨0⟩).tokens.tail ∧
    unclosedStringToken.kind = .stringLiteral ∧
    ∃ passed inside left, unclosedString.toList = passed ++ inside ++ left ∧
      unclosedStringToken.span =
        ⟨⟨0⟩, Pos.start.through passed, Pos.start.through (passed ++ inside)⟩ ∧
      (∀ front back, inside = front ++ '\n' :: back → RunsOn front) ∧
      (⟨.unterminatedString, unclosedStringToken.span⟩ ∈ (lex unclosedString ⟨0⟩).errors →
        left = [] ∨ ∃ more, left = '\n' :: more) ∧
      (lex unclosedString ⟨0⟩).tokens.tail = (lexFrom ⟨0⟩ 0
        ⟨Pos.start.through (passed ++ inside), openSubstitutions [], false⟩ left).tokens := by
  have htokens : (lex unclosedString ⟨0⟩).tokens =
      [] ++ unclosedStringToken :: (lex unclosedString ⟨0⟩).tokens.tail := by decide +kernel
  exact ⟨htokens, rfl, stringLiteral_endsAtLine htokens rfl⟩

/-- A string that opens a brace in an escape and does not close it. -/
def openEscape : String := "\"\\u\x7b\nx"

/-- The escape takes the line feed with all that follows, though no backslash stands in front
of the line feed. -/
theorem newline_in_openEscape : ¬ ∀ (text : String) (source : SourceId),
    ∀ token ∈ (lex text source).tokens, token.kind = .stringLiteral →
      ∀ passed inside left, text.toList = passed ++ inside ++ left →
        token.span = ⟨source, Pos.start.through passed, Pos.start.through (passed ++ inside)⟩ →
        ∀ front back, inside = front ++ '\n' :: back → ∃ more, front = more ++ ['\\'] := by
  intro hall
  have hmem : ⟨.stringLiteral, "\\u\nx", ⟨⟨0⟩, ⟨0, 1, 1⟩, ⟨6, 2, 2⟩⟩, false⟩ ∈
      (lex openEscape ⟨0⟩).tokens := by decide +kernel
  obtain ⟨more, hmore⟩ := hall openEscape ⟨0⟩ _ hmem rfl [] openEscape.toList [] rfl rfl
    ['"', '\\', 'u', '\x7b'] ['x'] rfl
  have hlast := congrArg List.getLast? hmore
  rw [List.getLast?_concat] at hlast
  cases hlast

end DeclFile
