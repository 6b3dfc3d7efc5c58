import Mathlib.Data.List.Forall2
import DeclFile.Proofs.LineBreak
import DeclFile.Proofs.Seam

/-! # Lines that end with a carriage return and a line feed

Where each line of a text ends with a carriage return in front of its line feed, the reader gets
one character further at every line than in the text without the returns. Outside of comments a
return is white space; at the end of a line comment it belongs to the comment, and within a
comment of several lines it stands among its characters. What the parser is given is the same
up to the offsets.
-/

namespace DeclFile

open Unicode

/-! ## Adding the returns -/

/-- The characters with a carriage return in front of each line feed. -/
def withReturns (chars : List Char) : List Char :=
  chars.flatMap fun c => if c = '\n' then ['\r', '\n'] else [c]

section

variable {chars : List Char} {c : Char}

@[simp] theorem withReturns_nil : withReturns [] = [] := rfl

@[simp] theorem withReturns_feed (rest : List Char) :
    withReturns ('\n' :: rest) = '\r' :: '\n' :: withReturns rest :=
  rfl

theorem withReturns_cons (h : c ≠ '\n') (rest : List Char) :
    withReturns (c :: rest) = c :: withReturns rest := by
  rw [withReturns, List.flatMap_cons, if_neg h]
  rfl

theorem withReturns_append (first second : List Char) :
    withReturns (first ++ second) = withReturns first ++ withReturns second :=
  List.flatMap_append

theorem withReturns_eq_self (h : '\n' ∉ chars) : withReturns chars = chars := by
  induction chars with
  | nil => rfl
  | cons c rest ih =>
      rw [List.mem_cons, not_or] at h
      rw [withReturns_cons (Ne.symm h.1), ih h.2]

theorem mem_withReturns_feed : '\n' ∈ withReturns chars ↔ '\n' ∈ chars := by
  constructor
  · intro h
    obtain ⟨c, hc, hmem⟩ := List.mem_flatMap.mp h
    by_cases hfeed : c = '\n'
    · exact hfeed ▸ hc
    · rw [if_neg hfeed, List.mem_singleton] at hmem
      exact absurd hmem.symm hfeed
  · intro h
    exact List.mem_flatMap.mpr ⟨'\n', h, by decide⟩

/-- Up to the end of the line the returns change nothing. -/
theorem echoes_withReturns (chars : List Char) : Echoes (· = '\r') chars (withReturns chars) := by
  induction chars with
  | nil => exact .ends []
  | cons c rest ih =>
      by_cases hfeed : c = '\n'
      · subst hfeed
        exact .breaks (by rfl) _ _
      · rw [withReturns_cons hfeed]
        exact .same c ih

end

/-- The place in the text with the returns, of which one stands in each line before. -/
def Pos.withReturns (pos : Pos) : Pos := ⟨pos.offset + (pos.line - 1), pos.line, pos.column⟩

def Span.withReturns (span : Span) : Span :=
  ⟨span.source, span.start.withReturns, span.stop.withReturns⟩

def Token.withReturns (token : Token) : Token := { token with span := token.span.withReturns }

def LexState.withReturns (state : LexState) : LexState :=
  { state with pos := state.pos.withReturns }

namespace Pos

theorem line_le_after (pos : Pos) (c : Char) : pos.line ≤ (pos.after c).line := by
  unfold after
  split
  · exact Nat.le_succ _
  · exact Nat.le_refl _

theorem after_withReturns {c : Char} (h : c ≠ '\n') (pos : Pos) :
    pos.withReturns.after c = (pos.after c).withReturns := by
  simp only [after, withReturns, if_neg h, Nat.add_right_comm]

theorem after_return_feed {pos : Pos} (hline : 1 ≤ pos.line) :
    (pos.withReturns.after '\r').after '\n' = (pos.after '\n').withReturns := by
  have hne : ¬ '\r' = '\n' := by decide
  have hreturn : Char.utf8Size '\r' = 1 := rfl
  have hfeed : Char.utf8Size '\n' = 1 := rfl
  simp only [after, withReturns, if_neg hne, if_true, hreturn, hfeed, Pos.mk.injEq,
    and_true]
  omega

/-- Moving through some characters and through them with the returns leads to the same place. -/
theorem through_withReturns {pos : Pos} (hline : 1 ≤ pos.line) (chars : List Char) :
    pos.withReturns.through (DeclFile.withReturns chars) = (pos.through chars).withReturns := by
  induction chars generalizing pos with
  | nil => rfl
  | cons c rest ih =>
      have hnext := Nat.le_trans hline (pos.line_le_after c)
      by_cases hfeed : c = '\n'
      · subst hfeed
        rw [withReturns_feed, through_cons, through_cons, through_cons, after_return_feed hline,
          ih hnext]
      · rw [withReturns_cons hfeed, through_cons, through_cons, after_withReturns hfeed, ih hnext]

end Pos

namespace LexState

variable {state : LexState}

/-- A carriage return ends no line. -/
theorem afterSpace_return (state : LexState) : state.afterSpace '\r' = state.afterChar '\r' := by
  rw [afterSpace, show isLineBreak '\r' = false from rfl, Bool.or_false]
  rfl

theorem afterSpace_return_feed (hline : 1 ≤ state.pos.line) :
    (state.withReturns.afterChar '\r').afterSpace '\n' = (state.afterSpace '\n').withReturns := by
  simp only [afterSpace, afterChar, withReturns, Pos.after_return_feed hline]

theorem afterSpace_withReturns {c : Char} (h : c ≠ '\n') :
    state.withReturns.afterSpace c = (state.afterSpace c).withReturns := by
  simp only [afterSpace, withReturns, Pos.after_withReturns h]

end LexState

/-! ## Lexemes -/

/-- Whether tokens of this kind stand between quotes, backticks or the braces of a template. -/
def Kind.isQuoted : Kind → Bool
  | .stringLiteral | .templateWhole | .templateHead | .templateMiddle | .templateTail => true
  | _ => false

namespace NumberLiteral

/-- A number ends before the end of its line. -/
theorem not_mem_take_length (first : Char) (rest : List Char) :
    '\n' ∉ rest.take (length first rest) := by
  intro hmem
  obtain ⟨before, more, htake⟩ := List.append_of_mem hmem
  have hrest : rest = before ++ '\n' :: (more ++ rest.drop (length first rest)) := by
    rw [← List.cons_append, ← List.append_assoc, ← htake, List.take_append_drop]
  have hseen : Echoes (· = '\n') [] ('\n' :: (more ++ rest.drop (length first rest))) :=
    .breaks (by rfl) _ _
  have hle := length_le first before
  have heq : length first (before ++ '\n' :: (more ++ rest.drop (length first rest))) =
      length first (before ++ []) :=
    length_eq (fun _ => Or.inl) hseen (by rwa [List.append_nil])
  rw [← hrest, List.append_nil] at heq
  have hlength := congrArg List.length htake
  rw [List.length_take, List.length_append, List.length_cons] at hlength
  omega

end NumberLiteral

namespace Lexeme

/-- The lexeme ends before the end of its line, or it may hold several lines. -/
def IsWithinLine (rest : List Char) (lexeme : Lexeme) : Prop :=
  (∃ kind, lexeme.kind = some kind ∧ (kind.isQuoted = true ∨ kind = .blockComment)) ∨
    '\n' ∉ rest.take lexeme.length

variable {depths : List Nat} {c : Char} {rest : List Char}

theorem isWithinLine_of_length {lexeme : Lexeme} (h : lexeme.length = 0) :
    lexeme.IsWithinLine rest :=
  .inr (by rw [h, List.take_zero]; exact List.not_mem_nil)

theorem isWithinLine_template {whole part : Kind} (hwhole : whole.isQuoted = true)
    (hpart : part.isQuoted = true) (body : Body) :
    (template depths whole part body).IsWithinLine rest := by
  unfold template
  split
  · exact .inl ⟨_, rfl, .inl hwhole⟩
  · exact .inl ⟨_, rfl, .inl hpart⟩
  · exact .inl ⟨_, rfl, .inl hwhole⟩

theorem isWithinLine_takeWhile {lexeme : Lexeme} {p : Char → Bool} (hp : p '\n' = false)
    (hlength : lexeme.length = (rest.takeWhile p).length) : lexeme.IsWithinLine rest := by
  right
  rw [hlength, ← List.prefix_iff_eq_take.mp (List.takeWhile_prefix p)]
  intro hmem
  rw [List.mem_takeWhile_imp hmem] at hp
  cases hp

theorem isWithinLine_number (first : Char) : (number depths first rest).IsWithinLine rest := by
  right
  rw [length_number]
  exact NumberLiteral.not_mem_take_length first rest

theorem isWithinLine_dot : (dot depths rest).IsWithinLine rest := by
  unfold dot
  split
  · exact .inr (by simp [plain])
  · split
    · exact isWithinLine_number _
    · exact isWithinLine_of_length rfl
  · exact isWithinLine_of_length rfl

theorem isWithinLine_read (depths : List Nat) (c : Char) (rest : List Char) :
    (read depths c rest).IsWithinLine rest := by
  unfold read
  split
  · exact isWithinLine_of_length rfl
  split
  · unfold openBrace
    split <;> exact isWithinLine_of_length rfl
  · unfold closeBrace
    split
    · exact isWithinLine_template rfl rfl _
    all_goals exact isWithinLine_of_length rfl
  · exact isWithinLine_dot
  · split
    · next harrow =>
        obtain ⟨more, rfl⟩ := List.head?_eq_some_iff.mp (beq_iff_eq.mp harrow)
        exact .inr (by simp [plain])
    · exact isWithinLine_of_length rfl
  · split
    · exact .inr ((unbroken_lineComment depths _).not_mem (kind_lineComment _))
    · exact .inl ⟨_, rfl, .inr rfl⟩
    · exact isWithinLine_of_length rfl
  · exact .inl ⟨_, rfl, .inl rfl⟩
  · exact .inl ⟨_, rfl, .inl rfl⟩
  · exact isWithinLine_template rfl rfl _
  · split
    · exact isWithinLine_takeWhile (p := isIdentifierContinue) rfl rfl
    · exact isWithinLine_of_length rfl
  · split
    · exact isWithinLine_number _
    split
    · exact isWithinLine_takeWhile (p := isIdentifierContinue) rfl rfl
    · exact isWithinLine_of_length rfl

/-- The lexeme is no comment or directive. -/
def IsSignificant (lexeme : Lexeme) : Prop :=
  ∀ kind, lexeme.kind = some kind → kind.isTrivia = false

theorem IsOrdinary.isSignificant {lexeme : Lexeme} (h : lexeme.IsOrdinary depths) :
    lexeme.IsSignificant := by
  obtain ⟨kind, hkind, htrivia, -⟩ := h.kind_eq
  intro other hother
  cases hkind.symm.trans hother
  exact htrivia

theorem isSignificant_template {whole part : Kind} (hwhole : whole.isTrivia = false)
    (hpart : part.isTrivia = false) (body : Body) :
    (template depths whole part body).IsSignificant := by
  unfold template
  split <;> rintro _ ⟨⟩ <;> assumption

theorem isSignificant_openBrace : (openBrace depths).IsSignificant := by
  unfold openBrace
  split <;> (rintro _ ⟨⟩; rfl)

theorem isSignificant_closeBrace : (closeBrace rest depths).IsSignificant := by
  unfold closeBrace
  split
  · exact isSignificant_template rfl rfl _
  all_goals
    rintro _ ⟨⟩
    rfl

/-- Comments and directives begin with two slashes or with a slash and a star. -/
theorem isSignificant_read (depths : List Nat) (c : Char) (rest : List Char) :
    (read depths c rest).IsSignificant ∨ (c = '/' ∧ ∃ more, rest = '/' :: more) ∨
      (c = '/' ∧ ∃ more, rest = '*' :: more) := by
  unfold read
  split
  · next hmark => exact .inl (isOrdinary_mark hmark).isSignificant
  split
  · exact .inl isSignificant_openBrace
  · exact .inl isSignificant_closeBrace
  · exact .inl (isOrdinary_dot _).isSignificant
  · left
    split <;> exact (isOrdinary_plain rfl rfl _).isSignificant
  · split
    · exact .inr (.inl ⟨rfl, _, rfl⟩)
    · exact .inr (.inr ⟨rfl, _, rfl⟩)
    · exact .inl (isOrdinary_plain rfl rfl _).isSignificant
  · exact .inl (IsOrdinary.isSignificant ⟨⟨_, rfl, rfl, rfl⟩, rfl⟩)
  · exact .inl (IsOrdinary.isSignificant ⟨⟨_, rfl, rfl, rfl⟩, rfl⟩)
  · exact .inl (isSignificant_template rfl rfl _)
  · left
    split
    · exact (isOrdinary_plain rfl rfl _).isSignificant
    · exact nofun
  · left
    split
    · exact (isOrdinary_number _ _).isSignificant
    split
    · exact (isOrdinary_word _ _).isSignificant
    · exact nofun

/-- White space at the end does not count. -/
theorem trim_concat (chars : List Char) {c : Char} (h : isWhiteSpace c = true) :
    trim (chars ++ [c]) = trim chars := by
  have hlast : [c].dropWhile isWhiteSpace = [] := List.dropWhile_cons_of_pos h
  rw [trim, trim, List.dropWhile_append, hlast]
  split
  · next hempty => rw [List.isEmpty_iff.mp hempty]
  · rw [List.reverse_append, List.reverse_singleton, List.singleton_append,
      List.dropWhile_cons_of_pos h]

/-- A directive has a text of its own. -/
theorem exists_text_of_directive (h : (lineComment depths rest).kind = some .directive) :
    ∃ text, (lineComment depths rest).text = some text := by
  unfold lineComment at h ⊢
  dsimp only at h ⊢
  split
  · exact ⟨_, rfl⟩
  · next hplain =>
      rw [if_neg hplain] at h
      cases h

theorem takeWhile_line {line : List Char} (h : '\n' ∉ line) (after : List Char) :
    (line ++ '\n' :: after).takeWhile (· != '\n') = line := by
  have hline : ∀ c ∈ line, (c != '\n') = true := fun c hc =>
    bne_iff_ne.mpr fun heq => h (heq ▸ hc)
  rw [List.takeWhile_append_of_pos hline]
  exact List.append_nil line

/-- The return at the end of the line of a comment or directive belongs to it, and its text is
the same. -/
theorem lineComment_return {line : List Char} (h : '\n' ∉ line) (after other : List Char) :
    lineComment depths (line ++ '\r' :: '\n' :: other) =
      { lineComment depths (line ++ '\n' :: after) with length := 1 + line.length + 1 } := by
  have hreturn : (line ++ '\r' :: '\n' :: other).takeWhile (· != '\n') = line ++ ['\r'] := by
    rw [List.append_cons]
    exact takeWhile_line (by simpa using h) other
  have hdrop : (line ++ ['\r']).dropWhile (· == '/') = line.dropWhile (· == '/') ++ ['\r'] := by
    rw [List.dropWhile_append]
    split
    · next hempty =>
        rw [List.isEmpty_iff.mp hempty]
        rfl
    · rfl
  have hhead : ((line ++ ['\r']).head? == some '/') = (line.head? == some '/') := by
    cases line <;> rfl
  unfold lineComment
  rw [takeWhile_line h, hreturn]
  dsimp only
  rw [hdrop, trim_concat _ rfl, hhead, List.length_append]
  split <;> rfl

/-- A comment takes the returns in its lines with it. -/
theorem blockLength_withReturns {chars : List Char} (h : (blockLength chars).2 = true) :
    blockLength (withReturns chars) =
      ((withReturns (chars.take (blockLength chars).1)).length, true) := by
  fun_induction blockLength chars with
  | case1 => cases h
  | case2 rest => rfl
  | case3 c rest hne length closed heq ih =>
      have hgoes : ¬ (c = '*' ∧ rest.head? = some '/') := by
        rintro ⟨rfl, hhead⟩
        obtain ⟨more, rfl⟩ := List.head?_eq_some_iff.mp hhead
        exact hne more rfl rfl
      rw [heq] at ih
      have hrest := ih h
      dsimp only at hrest ⊢
      rw [List.take_succ_cons]
      by_cases hfeed : c = '\n'
      · subst hfeed
        rw [withReturns_feed, withReturns_feed, blockLength_cons (by simp), blockLength_cons (by simp), hrest]
        rfl
      · have hother : ¬ (c = '*' ∧ (withReturns rest).head? = some '/') := by
          rintro ⟨hstar, hhead⟩
          exact hgoes ⟨hstar, (echoes_withReturns rest).head?_eq (by decide) hhead⟩
        rw [withReturns_cons hfeed, withReturns_cons hfeed, blockLength_cons hother, hrest]
        rfl

theorem blockComment_withReturns (h : (blockLength rest).2 = true) :
    blockComment depths (withReturns rest) =
      { blockComment depths rest with
        length := (withReturns (('*' :: rest).take (blockComment depths rest).length)).length } := by
  unfold blockComment
  dsimp only
  rw [blockLength_withReturns h, h, Nat.add_comm 1 (blockLength rest).1, List.take_succ_cons,
    withReturns_cons (by decide), List.length_cons, Nat.add_comm 1]

end Lexeme

/-! ## Both readers -/

/-- The pieces are the same but for what the returns move and for the text of comments. -/
structure Piece.Twin (piece other : Piece) : Prop where
  kind_eq : other.kind = piece.kind
  newlineBefore_eq : other.newlineBefore = piece.newlineBefore
  fault_eq : other.fault = piece.fault
  span_eq : ∀ kind, piece.kind = some kind → kind.isTrivia = false →
    other.span = piece.span.withReturns
  text_eq : ∀ kind, piece.kind = some kind → kind.isTrivia = false ∨ kind = .directive →
    other.text = piece.text

/-- The reader of a text and the reader of the text with returns stand at the same place, or the
second one is past the return of a line that both are at the end of. -/
inductive Abreast (state : LexState) : List Char → LexState → List Char → Prop
  | level (left : List Char) : Abreast state left state.withReturns (withReturns left)
  | between (rest : List Char) :
      Abreast state ('\n' :: rest) (state.withReturns.afterChar '\r') ('\n' :: withReturns rest)

/-- From the same place both readers pass a lexeme. -/
structure Passes (source : SourceId) (state : LexState) (c : Char) (rest : List Char)
    (lexeme other : Lexeme) : Prop where
  read_eq : Lexeme.read state.depths c (withReturns rest) = other
  abreast : Abreast (state.past c rest lexeme) (rest.drop lexeme.length)
    (state.withReturns.past c (withReturns rest) other) ((withReturns rest).drop other.length)
  twin : (state.piece source c rest lexeme).Twin
    (state.withReturns.piece source c (withReturns rest) other)

section

variable {source : SourceId} {state : LexState} {c : Char} {rest : List Char}
  {lexeme other : Lexeme}

/-- Both readers are at the same place after a lexeme if the second one takes just the returns in
it in addition. -/
theorem Passes.level (hline : 1 ≤ state.pos.line) (hc : c ≠ '\n')
    (hread : Lexeme.read state.depths c (withReturns rest) = other)
    (hother : other = { lexeme with length := (withReturns (rest.take lexeme.length)).length })
    (hwithin : ∀ kind, lexeme.kind = some kind → kind.isTrivia = false ∨ kind = .directive →
      '\n' ∉ rest.take lexeme.length) :
    Passes source state c rest lexeme other := by
  have hsplit : withReturns rest =
      withReturns (rest.take lexeme.length) ++ withReturns (rest.drop lexeme.length) := by
    rw [← withReturns_append, List.take_append_drop]
  have htake : (withReturns rest).take other.length = withReturns (rest.take lexeme.length) := by
    rw [hsplit, hother, List.take_left]
  have hdrop : (withReturns rest).drop other.length = withReturns (rest.drop lexeme.length) := by
    rw [hsplit, hother, List.drop_left]
  have hthrough : state.pos.withReturns.through (c :: withReturns (rest.take lexeme.length)) =
      (state.pos.through (c :: rest.take lexeme.length)).withReturns := by
    rw [← withReturns_cons hc, Pos.through_withReturns hline]
  have hcontains : (withReturns (rest.take lexeme.length)).contains '\n' =
      (rest.take lexeme.length).contains '\n' := by
    rw [Bool.eq_iff_iff, List.contains_iff_mem, List.contains_iff_mem, mem_withReturns_feed]
  refine ⟨hread, ?_, ?_⟩
  · have hpast : state.withReturns.past c (withReturns rest) other =
        (state.past c rest lexeme).withReturns := by
      rw [LexState.past, LexState.afterLexeme, htake, hcontains]
      simp only [LexState.withReturns, LexState.past, LexState.afterLexeme, hthrough]
      rw [hother]
    rw [hpast, hdrop]
    exact .level _
  · have hpiece : state.withReturns.piece source c (withReturns rest) other =
      ⟨lexeme.kind, String.ofList (lexeme.text.getD (c :: withReturns (rest.take lexeme.length))),
        (state.piece source c rest lexeme).span.withReturns, state.newline, lexeme.fault⟩ := by
      rw [LexState.piece, htake]
      simp only [LexState.withReturns, LexState.piece, Span.withReturns, hthrough]
      rw [hother]
    rw [hpiece]
    refine ⟨rfl, rfl, rfl, fun _ _ _ => rfl, fun kind hkind hshown => ?_⟩
    rw [withReturns_eq_self (hwithin kind hkind hshown)]
    rfl

/-- Behind the comment or directive in a line the second reader is past the return. -/
theorem Passes.between (hline : 1 ≤ state.pos.line) {line : List Char} (hfeed : '\n' ∉ line)
    (after : List Char) :
    Passes source state '/' ('/' :: (line ++ '\n' :: after))
      (Lexeme.lineComment state.depths (line ++ '\n' :: after))
      (Lexeme.lineComment state.depths (line ++ '\r' :: '\n' :: withReturns after)) := by
  obtain ⟨lexeme, hlexeme⟩ : ∃ lexeme,
    lexeme = Lexeme.lineComment state.depths (line ++ '\n' :: after) := ⟨_, rfl⟩
  have hlength : lexeme.length = line.length + 1 := by
    rw [hlexeme, Lexeme.length_lineComment, Lexeme.takeWhile_line hfeed, Nat.add_comm]
  have hkind : lexeme.kind = some .lineComment ∨ lexeme.kind = some .directive :=
    hlexeme ▸ Lexeme.kind_lineComment _
  have hother : Lexeme.lineComment state.depths (line ++ '\r' :: '\n' :: withReturns after) =
      { lexeme with length := line.length + 1 + 1 } := by
    rw [Lexeme.lineComment_return hfeed after, ← hlexeme, Nat.add_comm 1]
  have hrest : withReturns ('/' :: (line ++ '\n' :: after)) =
      ('/' :: line ++ ['\r']) ++ '\n' :: withReturns after := by
    rw [withReturns_cons (by decide), withReturns_append, withReturns_eq_self hfeed,
      withReturns_feed, List.append_cons]
    rfl
  have hthrough : state.pos.withReturns.through ('/' :: ('/' :: line ++ ['\r'])) =
      ((state.pos.through ('/' :: '/' :: line)).withReturns).after '\r' := by
    have hself : withReturns ('/' :: '/' :: line) = '/' :: '/' :: line :=
      withReturns_eq_self (by simpa using hfeed)
    rw [← List.cons_append, Pos.through_concat, ← hself, Pos.through_withReturns hline, hself]
  have hsplit : '/' :: (line ++ '\n' :: after) = ('/' :: line) ++ '\n' :: after := rfl
  rw [hother, ← hlexeme, hsplit]
  refine ⟨?_, ?_, ?_⟩
  · rw [← hsplit, hrest, ← hother, List.append_assoc]
    rfl
  · rw [← hsplit, hrest, hsplit, List.drop_left' (by rw [hlength]; rfl), List.drop_left' (by simp)]
    have hstop : state.withReturns.past '/' (('/' :: line ++ ['\r']) ++ '\n' :: withReturns after)
        { lexeme with length := line.length + 1 + 1 } =
        (state.past '/' (('/' :: line) ++ '\n' :: after) lexeme).withReturns.afterChar '\r' := by
      simp only [LexState.past, LexState.withReturns, LexState.afterChar]
      rw [List.take_left' (by simp), List.take_left' (by rw [hlength]; rfl), hthrough]
      rcases hkind with hkind | hkind <;> simp only [LexState.afterLexeme, hkind]
    rw [hstop]
    exact .between after
  · rw [← hsplit, hrest]
    refine ⟨rfl, rfl, rfl, fun kind hsome htrivia => ?_, fun kind hsome hshown => ?_⟩
    · rcases hkind with hkind | hkind <;> cases hkind.symm.trans hsome <;> cases htrivia
    · obtain ⟨text, htext⟩ : ∃ text, lexeme.text = some text := by
        rcases hkind with hkind | hkind <;> cases hkind.symm.trans hsome
        · rcases hshown with hshown | hshown <;> cases hshown
        · exact hlexeme ▸ Lexeme.exists_text_of_directive (hlexeme ▸ hkind)
      simp only [LexState.piece, htext, Option.getD_some]

/-- Both readers pass any lexeme without a fault, if none in quotes holds the end of a line. -/
theorem exists_passes (source : SourceId) (hline : 1 ≤ state.pos.line) (hspace : isWhiteSpace c = false)
    (hread : Lexeme.read state.depths c rest = lexeme) (hfault : lexeme.fault = none)
    (hquoted : ∀ kind, lexeme.kind = some kind → kind.isQuoted = true →
      '\n' ∉ rest.take lexeme.length) : ∃ other, Passes source state c rest lexeme other := by
  have hc : c ≠ '\n' := by
    rintro rfl
    cases hspace
  have hlength : lexeme.length ≤ rest.length := hread ▸ Lexeme.length_read_le _ _ _
  have hself (hwithin : '\n' ∉ rest.take lexeme.length) :
      lexeme = { lexeme with length := (withReturns (rest.take lexeme.length)).length } := by
    rw [withReturns_eq_self hwithin, List.length_take_of_le hlength]
  rcases Lexeme.isSignificant_read state.depths c rest with
    hsignificant | ⟨rfl, more, rfl⟩ | ⟨rfl, more, rfl⟩
  · rw [hread] at hsignificant
    have hwithin : '\n' ∉ rest.take lexeme.length := by
      rcases hread ▸ Lexeme.isWithinLine_read state.depths c rest with
        ⟨kind, hkind, hquote | rfl⟩ | hwithin
      · exact hquoted kind hkind hquote
      · cases hsignificant _ hkind
      · exact hwithin
    refine ⟨lexeme, .level hline hc ?_ (hself hwithin) fun _ _ _ => hwithin⟩
    have hsteady : Lexeme.IsSteady (· = '\r') (rest.take lexeme.length) (rest.drop lexeme.length)
        (withReturns (rest.drop lexeme.length)) (Lexeme.read state.depths c) :=
      Lexeme.isSteady_read (fun _ => Or.inr) (echoes_withReturns (rest.drop lexeme.length))
    have heq := hsteady.eq
    rw [List.take_append_drop, hread, List.length_take_of_le hlength] at heq
    rw [← List.take_append_drop lexeme.length rest, withReturns_append,
      withReturns_eq_self hwithin]
    refine heq hfault (Nat.le_refl _) ?_
    rintro (hkind | hkind) <;> cases hsignificant _ hkind
  · have hcomment : lexeme = Lexeme.lineComment state.depths more := hread.symm
    by_cases hfeed : '\n' ∈ more
    · obtain ⟨line, after, rfl, hline'⟩ := List.eq_append_cons_of_mem hfeed
      rw [hcomment]
      exact ⟨_, Passes.between hline hline' after⟩
    · have hmore : '\n' ∉ '/' :: more := by simpa using hfeed
      have hwithin : '\n' ∉ ('/' :: more).take lexeme.length := fun h =>
        hmore (List.mem_of_mem_take h)
      refine ⟨lexeme, .level hline hc ?_ (hself hwithin) fun _ _ _ => hwithin⟩
      rw [withReturns_eq_self hmore]
      exact hread
  · have hcomment : lexeme = Lexeme.blockComment state.depths more := hread.symm
    refine ⟨Lexeme.blockComment state.depths (withReturns more), .level hline hc rfl ?_ ?_⟩
    · have hsound : (Lexeme.blockComment state.depths more).fault = none := hcomment ▸ hfault
      have hclosed : (Lexeme.blockLength more).2 = true := Lexeme.closed_of_fault hsound
      rw [hcomment, Lexeme.blockComment_withReturns hclosed]
    · rw [hcomment]
      rintro _ ⟨⟩ (htrivia | htrivia) <;> cases htrivia

end

/-! ## Whole texts -/

/-- The text with a carriage return in front of each line feed. -/
def windowsText (text : String) : String := String.ofList (withReturns text.toList)

/-- No piece in quotes holds the end of a line. -/
def QuotesWithinLines (text : String) (pieces : List Piece) : Prop :=
  ∀ piece ∈ pieces, ∀ kind, piece.kind = some kind → kind.isQuoted = true →
    '\n' ∉ (String.Pos.Raw.extract text ⟨piece.span.start.offset⟩ ⟨piece.span.stop.offset⟩).toList

namespace Reaches

variable {text : String} {source : SourceId} {pieces : List Piece} {state : LexState}
  {left : List Char}

theorem one_le_line (h : Reaches text source pieces state left) : 1 ≤ state.pos.line := by
  obtain ⟨passed, -, hpos⟩ := h.exists_passed
  rw [hpos, (Pos.isAfter_through passed).line]
  exact Nat.le_add_right _ _

/-- The characters of a piece are what stands in the text at its span. -/
theorem extract_piece {c : Char} {rest : List Char} (h : Reaches text source pieces state (c :: rest))
    (lexeme : Lexeme) :
    String.Pos.Raw.extract text ⟨(state.piece source c rest lexeme).span.start.offset⟩
      ⟨(state.piece source c rest lexeme).span.stop.offset⟩ =
        String.ofList (c :: rest.take lexeme.length) := by
  obtain ⟨passed, htext, hpos⟩ := h.exists_passed
  rw [← List.take_append_drop lexeme.length rest, ← List.cons_append, ← List.append_assoc] at htext
  have hslice := extract_through htext
  rw [Pos.through_append, ← hpos] at hslice
  exact hslice

/-- While a text is read, the reader of the text with returns stays abreast. -/
theorem windowsText (h : Reaches text source pieces state left)
    (hfault : ∀ piece ∈ pieces, piece.fault = none) (hquotes : QuotesWithinLines text pieces) :
    ∃ others other behind, Reaches (DeclFile.windowsText text) source others other behind ∧
      Abreast state left other behind ∧ List.Forall₂ Piece.Twin pieces others := by
  induction h with
  | start =>
      have htext : (DeclFile.windowsText text).toList = withReturns text.toList :=
        String.toList_ofList
      exact ⟨[], .initial, _, htext ▸ .start, .level _, .nil⟩
  | @space pieces state c rest h hspace ih =>
      obtain ⟨others, other, behind, hreaches, habreast, htwins⟩ := ih hfault hquotes
      cases habreast with
      | between rest =>
          refine ⟨others, _, _, hreaches.space rfl, ?_, htwins⟩
          rw [LexState.afterSpace_return_feed h.one_le_line]
          exact .level rest
      | level =>
          by_cases hfeed : c = '\n'
          · subst hfeed
            refine ⟨others, _, _, (hreaches.space rfl).space rfl, ?_, htwins⟩
            rw [LexState.afterSpace_return, LexState.afterSpace_return_feed h.one_le_line]
            exact .level rest
          · rw [withReturns_cons hfeed] at hreaches
            refine ⟨others, _, _, hreaches.space hspace, ?_, htwins⟩
            rw [LexState.afterSpace_withReturns hfeed]
            exact .level rest
  | @lexeme pieces state c rest lexeme h hspace hread ih =>
      obtain ⟨others, other, behind, hreaches, habreast, htwins⟩ := ih
        (fun piece hpiece => hfault piece (List.mem_append_left _ hpiece))
        (fun piece hpiece => hquotes piece (List.mem_append_left _ hpiece))
      cases habreast with
      | between => cases hspace
      | level =>
          have hquoted : ∀ kind, lexeme.kind = some kind → kind.isQuoted = true →
              '\n' ∉ rest.take lexeme.length := by
            intro kind hkind hquote hmem
            have hslice := hquotes _ List.mem_concat_self kind hkind hquote
            rw [h.extract_piece lexeme, String.toList_ofList] at hslice
            exact hslice (List.mem_cons_of_mem _ hmem)
          obtain ⟨mate, hpasses⟩ := exists_passes source h.one_le_line hspace hread
            (hfault _ List.mem_concat_self) hquoted
          have hc : c ≠ '\n' := by
            rintro rfl
            cases hspace
          rw [withReturns_cons hc] at hreaches
          exact ⟨_, _, _, hreaches.lexeme hspace hpasses.read_eq, hpasses.abreast,
            List.rel_append htwins (.cons hpasses.twin .nil)⟩

end Reaches

/-- The tokens are the same but for what the returns move and for the text of comments. -/
structure Token.Twin (token other : Token) : Prop where
  kind_eq : other.kind = token.kind
  newlineBefore_eq : other.newlineBefore = token.newlineBefore
  significant_eq : token.kind.isTrivia = false → other = token.withReturns
  text_eq : token.kind = .directive → other.text = token.text

theorem Piece.Twin.token {piece other : Piece} (h : piece.Twin other) :
    Option.Rel Token.Twin piece.token? other.token? := by
  rw [Piece.token?, Piece.token?, h.kind_eq]
  cases hkind : piece.kind with
  | none => exact .none
  | some kind =>
      refine .some ⟨rfl, h.newlineBefore_eq, fun hsignificant => ?_, fun hdirective => ?_⟩
      · rw [h.span_eq kind hkind hsignificant, h.text_eq kind hkind (.inl hsignificant),
          h.newlineBefore_eq]
        rfl
      · exact h.text_eq kind hkind (.inr hdirective)

/-- The significant tokens are moved, with the same line breaks in front of them. -/
theorem TokenStream.significantOnto_twins {raw others : List Token}
    (h : List.Forall₂ Token.Twin raw others) (pending : Bool) :
    significantOnto [] pending others =
      (significantOnto [] pending raw).map Token.withReturns := by
  induction h generalizing pending with
  | nil => rfl
  | @cons token other raw others htwin _ ih =>
      rw [significantOnto, significantOnto, htwin.kind_eq]
      by_cases htrivia : token.kind.isTrivia = true
      · rw [if_pos htrivia, if_pos htrivia, ih, pendsAfter, pendsAfter, htwin.kind_eq,
          htwin.newlineBefore_eq]
      · rw [if_neg htrivia, if_neg htrivia, significantOnto_eq, ih, significantOnto_eq [_] _ raw,
          List.map_append, htwin.significant_eq (Bool.eq_false_iff.mpr htrivia)]
        rfl

theorem text_directives_twins {raw others : List Token} (h : List.Forall₂ Token.Twin raw others) :
    (others.filter (·.kind == .directive)).map Token.text =
      (raw.filter (·.kind == .directive)).map Token.text := by
  induction h with
  | nil => rfl
  | @cons token other raw others htwin _ ih =>
      rw [List.filter_cons, List.filter_cons, htwin.kind_eq]
      split
      · next hdirective =>
          rw [List.map_cons, List.map_cons, ih, htwin.text_eq (beq_iff_eq.mp hdirective)]
      · exact ih

theorem fault_twins {pieces others : List Piece} (h : List.Forall₂ Piece.Twin pieces others)
    (hfault : ∀ piece ∈ pieces, piece.fault = none) : ∀ other ∈ others, other.fault = none := by
  induction h with
  | nil => exact fun _ hmem => absurd hmem List.not_mem_nil
  | cons htwin _ ih =>
      rw [List.forall_mem_cons] at hfault ⊢
      exact ⟨htwin.fault_eq.trans hfault.1, ih hfault.2⟩

/-- What is the same of a text with returns in front of its line feeds. -/
structure SameLines (text : String) (source : SourceId) : Prop where
  errors_eq : (lex (windowsText text) source).errors = []
  /-- The significant tokens are the same, moved by one byte for each line before. -/
  tokens_eq : (textStream (windowsText text) source).tokens =
    (textStream text source).tokens.map Token.withReturns
  directives_eq : (textStream (windowsText text) source).directives.map Token.text =
    (textStream text source).directives.map Token.text

/-- Returns in front of the line feeds make no difference to a text without errors, if no token
in quotes goes over several lines. -/
theorem lex_windowsText {text : String} {source : SourceId}
    (herrors : (lex text source).errors = [])
    (hquotes : ∀ token ∈ (lex text source).tokens, token.kind.isQuoted = true →
      '\n' ∉ (String.Pos.Raw.extract text ⟨token.span.start.offset⟩
        ⟨token.span.stop.offset⟩).toList) : SameLines text source := by
  have hsound := fault_of_lex_errors herrors
  have hwithin : QuotesWithinLines text (textPieces text source).1 := by
    intro piece hpiece kind hkind
    have htoken : piece.token? = some ⟨kind, piece.text, piece.span, piece.newlineBefore⟩ := by
      rw [Piece.token?, hkind, Option.map_some]
    exact hquotes _ (List.mem_append_left _ (List.mem_filterMap.mpr ⟨piece, hpiece, htoken⟩))
  obtain ⟨others, other, behind, hreaches, habreast, htwins⟩ :=
    (Reaches.atEnd text source).windowsText hsound hwithin
  cases habreast
  have hpieces : textPieces (windowsText text) source =
      (others, (textPieces text source).2.withReturns) := by
    rw [hreaches.resume]
    exact congrArg (·, _) (List.append_nil others)
  have htokens : List.Forall₂ Token.Twin (textTokens text source)
      (textTokens (windowsText text) source) := by
    rw [textTokens, textTokens, hpieces]
    exact List.rel_filterMap (fun _ _ htwin => htwin.token) htwins
  have hend : (textEnd text source).Twin (textEnd (windowsText text) source) := by
    have hkind : (textEnd text source).kind ≠ .directive := by simp [textEnd]
    refine ⟨rfl, ?_, ?_, fun h => absurd h hkind⟩
    · rw [textEnd, textEnd, hpieces]
      rfl
    · rw [textEnd, textEnd, hpieces]
      exact fun _ => rfl
  refine ⟨?_, ?_, ?_⟩
  · have hothers := fault_twins htwins hsound
    rw [lex_errors, hpieces]
    exact List.filterMap_eq_nil_iff.mpr fun piece hpiece =>
      Option.map_eq_none_iff.mpr (hothers piece hpiece)
  · rw [tokens_textStream, tokens_textStream, lex_tokens, lex_tokens]
    exact TokenStream.significantOnto_twins (List.rel_append htokens (.cons hend .nil)) false
  · rw [(textStream_spec _ _).2.2, (textStream_spec _ _).2.2]
    exact text_directives_twins htokens

/-- A text with a directive, a comment over two lines and a string. -/
def severalLines : String := "/// <a>\n/*\n*/ 'c' // d\n"

theorem lex_windowsText_severalLines :
    (lex severalLines ⟨0⟩).errors = [] ∧
    (∀ token ∈ (lex severalLines ⟨0⟩).tokens, token.kind.isQuoted = true →
      '\n' ∉ (String.Pos.Raw.extract severalLines ⟨token.span.start.offset⟩
        ⟨token.span.stop.offset⟩).toList) ∧
    SameLines severalLines ⟨0⟩ := by
  have herrors : (lex severalLines ⟨0⟩).errors = [] := by decide +kernel
  have hquotes : ∀ token ∈ (lex severalLines ⟨0⟩).tokens, token.kind.isQuoted = true →
      '\n' ∉ (String.Pos.Raw.extract severalLines ⟨token.span.start.offset⟩
        ⟨token.span.stop.offset⟩).toList := by decide +kernel
  exact ⟨herrors, hquotes, lex_windowsText herrors hquotes⟩

end DeclFile
