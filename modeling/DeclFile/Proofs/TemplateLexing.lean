import DeclFile.Proofs.Quoted
import DeclFile.Proofs.Seam
import DeclFile.Proofs.TemplateTree

/-! # Written templates are cut into their pieces

The text of a template literal comes to its tokens. Inside a substitution the braces of object
types are counted, and a template literal starts a count of its own. So whatever stands in a
substitution leaves the counts as it found them, and the brace behind it resumes the literal.
-/

namespace DeclFile

open Unicode

/-! ## What begins an identifier -/

theorem isIdentifierStart_of_code {c : Char} {codes : List Nat} (h : c.toNat ∈ codes)
    (hcodes : ∀ code ∈ codes, isIdentifierStart (Char.ofNat code) = false) :
    isIdentifierStart c = false :=
  Char.ofNat_toNat c ▸ hcodes c.toNat h

theorem isIdentifierStart_of_isDigit {c : Char} (h : c.isDigit = true) :
    isIdentifierStart c = false := by
  have hcode : c.toNat ∈ List.range' 0x30 10 := by
    simp only [Char.isDigit, Bool.and_eq_true, decide_eq_true_eq, ge_iff_le,
      UInt32.le_iff_toNat_le] at h
    exact List.mem_range'_1.mpr ⟨h.1, Nat.lt_succ_of_le h.2⟩
  exact isIdentifierStart_of_code hcode (by decide)

theorem isIdentifierStart_of_isWhiteSpace {c : Char} (h : isWhiteSpace c = true) :
    isIdentifierStart c = false := by
  have hcode : c.toNat ∈ List.range' 0x09 5 ++ List.range' 0x2000 11 ++
      [0x20, 0x85, 0xA0, 0x1680, 0x2028, 0x2029, 0x202F, 0x205F, 0x3000] := by
    simp only [isWhiteSpace, Bool.or_eq_true, Bool.and_eq_true, decide_eq_true_eq,
      beq_iff_eq] at h
    simp only [List.mem_append, List.mem_range'_1, List.mem_cons, List.not_mem_nil, or_false]
    omega
  exact isIdentifierStart_of_code hcode (by decide +kernel)

/-- No mark begins an identifier. -/
theorem Mark.ofChar?_of_isIdentifierStart {c : Char} (h : isIdentifierStart c = true) :
    ofChar? c = none := by
  unfold ofChar?
  split
  case h_18 => rfl
  all_goals exact absurd h (by decide)

theorem Lexeme.read_of_isIdentifierStart {c : Char} (h : isIdentifierStart c = true)
    (depths : List Nat) (rest : List Char) : read depths c rest = word depths c rest := by
  have hdigit : ¬ c.isDigit = true := fun hdigit =>
    absurd h (Bool.eq_false_iff.mp (isIdentifierStart_of_isDigit hdigit))
  unfold read
  rw [Mark.ofChar?_of_isIdentifierStart h]
  dsimp only
  split
  case h_10 => rw [if_neg hdigit, if_pos h]
  all_goals exact absurd h (by decide)

/-! ## Tokens that have been passed -/

/-- Reading the text has passed tokens that are written like the symbols, on one line and without
a fault, and stands in front of the characters that are left, with these braces open. -/
inductive Passed (text : String) (source : SourceId) (symbols : List Symbol) (depths : List Nat)
    (left : List Char) : Prop
  | intro {pieces : List Piece} {state : LexState} (reaches : Reaches text source pieces state left)
      (depths_eq : state.depths = depths) (unbroken : state.newline = false)
      (shows : List.Forall₂ Token.Shows (pieces.filterMap Piece.token?) symbols)
      (significant : ∀ token ∈ pieces.filterMap Piece.token?, token.kind.isTrivia = false)
      (faultless : ∀ piece ∈ pieces, piece.fault = none)

namespace Passed

variable {text : String} {source : SourceId} {symbols : List Symbol} {depths opened : List Nat}
  {c : Char} {left : List Char}

theorem start (text : String) (source : SourceId) : Passed text source [] [] text.toList :=
  ⟨.start, rfl, rfl, .nil, by simp, by simp⟩

theorem blank (h : Passed text source symbols depths (' ' :: left)) :
    Passed text source symbols depths left := by
  obtain ⟨hreaches, hdepths, hline, hshows, hsignificant, hfaultless⟩ := h
  refine ⟨hreaches.space rfl, hdepths, ?_, hshows, hsignificant, hfaultless⟩
  simp only [LexState.afterSpace, hline]
  rfl

/-- A lexeme that is a significant token without a fault is passed. -/
theorem lexeme {kind : Kind} (inside : List Char) (text? : Option (List Char))
    (h : Passed text source symbols depths (c :: (inside ++ left)))
    (hspace : isWhiteSpace c = false)
    (hread : Lexeme.read depths c (inside ++ left) =
      ⟨some kind, inside.length, text?, none, opened⟩)
    (hsignificant : kind.isTrivia = false) :
    Passed text source (symbols ++ [⟨kind, String.ofList (text?.getD (c :: inside))⟩]) opened
      left := by
  obtain ⟨hreaches, rfl, hline, hshows, htokens, hfaultless⟩ := h
  have hpassed := hreaches.lexeme hspace hread
  rw [List.drop_left] at hpassed
  refine ⟨hpassed, rfl, ?_, ?_, ?_, ?_⟩
  · cases kind <;> first | rfl | cases hsignificant
  · rw [filterMap_token?_some _ rfl]
    refine List.rel_append hshows (.cons ⟨rfl, ?_, hline⟩ .nil)
    simp only [LexState.token, LexState.piece, List.take_left]
  · rw [filterMap_token?_some _ rfl]
    exact List.forall_mem_append.mpr ⟨htokens, by simpa [LexState.token] using hsignificant⟩
  · exact List.forall_mem_append.mpr ⟨hfaultless, by simp [LexState.piece]⟩

/-- A mark of one character is passed. -/
theorem mark (sign : Mark) (h : Passed text source symbols depths (c :: left))
    (hspace : isWhiteSpace c = false)
    (hread : Lexeme.read depths c left = .plain opened (.mark sign) 0)
    (hspelling : sign.spelling = String.ofList [c]) :
    Passed text source (symbols ++ [.mark sign]) opened left := by
  rw [Symbol.mark, hspelling]
  exact lexeme [] none h hspace hread rfl

/-- A word is passed up to a character with which it cannot go on. -/
theorem word (word : Identifier)
    (h : Passed text source symbols depths (word.chars ++ left))
    (hleft : left.head?.any isIdentifierContinue = false) :
    Passed text source (symbols ++ [word.symbol]) depths left := by
  have hspace : isWhiteSpace word.first = false := by
    by_contra hspace
    rw [Bool.not_eq_false] at hspace
    exact Bool.false_ne_true
      ((isIdentifierStart_of_isWhiteSpace hspace).symm.trans word.starts)
  have hmore : (word.more ++ left).takeWhile isIdentifierContinue = word.more := by
    rw [List.takeWhile_append_of_pos word.continues]
    cases left with
    | nil => simp
    | cons c left => rw [List.takeWhile_cons_of_neg (by simpa using hleft), List.append_nil]
  refine lexeme word.more none h hspace ?_ rfl
  rw [Lexeme.read_of_isIdentifierStart word.starts, Lexeme.word, hmore]
  simp only [word.distinct, Lexeme.plain]

/-- At the end of the text its tokens are those that have been passed. -/
theorem atEnd (h : Passed text source symbols depths []) :
    (lex text source).errors = [] ∧ (textStream text source).Spells symbols := by
  obtain @⟨pieces, _, hreaches, -, -, hshows, hsignificant, hfaultless⟩ := h
  have hpieces : (textPieces text source).1 = pieces := by
    rw [hreaches.resume, piecesOnto, List.reverse_nil, List.append_nil]
  constructor
  · rw [lex_errors, hpieces, List.filterMap_eq_nil_iff]
    exact fun piece hpiece => by rw [Piece.error?, hfaultless piece hpiece, Option.map_none]
  · rw [TokenStream.Spells, (textStream_spec text source).1, textTokens, hpieces,
      TokenStream.significantOnto_of_significant hsignificant]
    exact hshows

end Passed

/-! ## Texts in template literals -/

/-- What has a meaning of its own stands for itself after a backslash. -/
theorem Escape.read_of_isTemplateSpecial {c : Char} (h : isTemplateSpecial c = true)
    (rest : List Char) : read (c :: rest) = ⟨[c], 1⟩ := by
  simp only [isTemplateSpecial, Bool.or_eq_true, beq_iff_eq] at h
  rcases h with (rfl | rfl) | rfl <;> rfl

namespace Body

theorem readTemplate_escapeChar (c : Char) (rest : List Char) :
    readTemplate 0 (escapeChar c ++ rest) =
      (readTemplate 0 rest).behind [c] (escapeChar c).length := by
  unfold escapeChar
  split
  next hspecial => exact readTemplate_escape [c] (Escape.read_of_isTemplateSpecial hspecial rest)
  next hplain =>
    simp only [isTemplateSpecial, Bool.or_eq_true, beq_iff_eq, not_or] at hplain
    exact readTemplate_char hplain.1.1 hplain.1.2 fun hopens => hplain.2 hopens.1

/-- A text is read as itself, and reading goes on behind it. -/
theorem readTemplate_escapeText (text : String) (rest : List Char) :
    readTemplate 0 (escapeText text ++ rest) =
      (readTemplate 0 rest).behind text.toList (escapeText text).length := by
  unfold escapeText
  induction text.toList with
  | nil => simp [behind]
  | cons c chars ih =>
      rw [List.flatMap_cons, List.append_assoc, readTemplate_escapeChar, ih, behind_behind,
        List.singleton_append, List.length_append]

end Body

theorem escapeText_append (first second : String) :
    escapeText (first ++ second) = escapeText first ++ escapeText second := by
  rw [escapeText, String.toList_append, List.flatMap_append]
  rfl

/-! ## Trees -/

/-- The braces that are open inside one more. -/
def bracedIn : List Nat → List Nat
  | [] => []
  | depth :: outer => (depth + 1) :: outer

theorem Lexeme.read_openBrace (depths : List Nat) (rest : List Char) :
    read depths '\x7b' rest = plain (bracedIn depths) (.mark .openBrace) 0 := by
  cases depths <;> rfl

theorem Lexeme.read_closeBrace (depths : List Nat) (rest : List Char) :
    read (bracedIn depths) '\x7d' rest = plain depths (.mark .closeBrace) 0 := by
  cases depths <;> rfl

/-- The character opens a piece of a template: the last piece, or one with a substitution behind
it. -/
structure OpensPiece (opened : List Nat) (c : Char) (depths : List Nat) (last part : Kind) :
    Prop where
  space : isWhiteSpace c = false
  read : ∀ chars, Lexeme.read opened c chars =
    .template depths last part (Body.readTemplate 0 chars)
  last : last.isTrivia = false
  part : part.isTrivia = false

theorem opensPiece_backtick (depths : List Nat) :
    OpensPiece depths '\x60' depths .templateWhole .templateHead :=
  ⟨rfl, fun _ => rfl, rfl, rfl⟩

/-- Where no brace is open inside a substitution, one that closes resumes the template. -/
theorem opensPiece_brace (depths : List Nat) :
    OpensPiece (0 :: depths) '\x7d' depths .templateTail .templateMiddle :=
  ⟨rfl, fun _ => rfl, rfl, rfl⟩

namespace Passed

variable {text : String} {source : SourceId} {symbols : List Symbol} {depths opened : List Nat}
  {c : Char} {left : List Char} {last part : Kind}

theorem lastPiece (hopens : OpensPiece opened c depths last part) (before : String)
    (h : Passed text source symbols opened (c :: (escapeText before ++ '\x60' :: left))) :
    Passed text source (symbols ++ [⟨last, before⟩]) depths left := by
  have hread : Lexeme.read opened c ((escapeText before ++ ['\x60']) ++ left) =
      ⟨some last, (escapeText before ++ ['\x60']).length, some before.toList, none,
        depths⟩ := by
    rw [hopens.read, List.append_assoc, Body.readTemplate_escapeText]
    simp [Body.readTemplate, Body.behind, Lexeme.template]
  rw [List.append_cons] at h
  have hpassed := lexeme _ _ h hopens.space hread hopens.last
  rwa [Option.getD_some, String.ofList_toList] at hpassed

/-- In front of a substitution a count of open braces begins. -/
theorem piece (hopens : OpensPiece opened c depths last part) (before : String)
    (h : Passed text source symbols opened
      (c :: (escapeText before ++ '$' :: '\x7b' :: left))) :
    Passed text source (symbols ++ [⟨part, before⟩]) (0 :: depths) left := by
  have hread : Lexeme.read opened c ((escapeText before ++ ['$', '\x7b']) ++ left) =
      ⟨some part, (escapeText before ++ ['$', '\x7b']).length, some before.toList, none,
        0 :: depths⟩ := by
    rw [hopens.read, List.append_assoc, Body.readTemplate_escapeText]
    simp [Body.readTemplate, Body.behind, Lexeme.template]
  rw [List.append_cons, List.append_cons, List.append_assoc (escapeText before)] at h
  have hpassed := lexeme _ _ h hopens.space hread hopens.part
  rwa [Option.getD_some, String.ofList_toList] at hpassed

end Passed

mutual

/-- The text of a type comes to its tokens wherever it stands, if no word goes on behind it. -/
theorem TemplateTree.passed (tree : TemplateTree) {text : String} {source : SourceId}
    {symbols : List Symbol} {depths : List Nat} {left : List Char}
    (h : Passed text source symbols depths (tree.write ++ left))
    (hleft : left.head?.any isIdentifierContinue = false) :
    Passed text source (symbols ++ tree.symbols) depths left := by
  match tree with
  | .name word _ => exact h.word word hleft
  | .array element =>
      rw [TemplateTree.write, List.append_assoc] at h
      have hopening := (element.passed h rfl).mark .openBracket rfl rfl rfl
      have hclosing := hopening.mark .closeBracket rfl rfl rfl
      simpa [TemplateTree.symbols] using hclosing
  | .object fields =>
      rw [TemplateTree.write, List.cons_append, List.cons_append, List.append_assoc] at h
      have hopening := h.mark .openBrace rfl (Lexeme.read_openBrace _ _) rfl
      have hfields := fields.passed hopening.blank
      have hclosing := hfields.mark .closeBrace rfl (Lexeme.read_closeBrace _ _) rfl
      simpa [TemplateTree.symbols] using hclosing
  | .template parts =>
      rw [TemplateTree.write, List.cons_append] at h
      exact parts.passed (opensPiece_backtick depths) "" h

theorem FieldTrees.passed (fields : FieldTrees) {text : String} {source : SourceId}
    {symbols : List Symbol} {depths : List Nat} {left : List Char}
    (h : Passed text source symbols depths (fields.write ++ left)) :
    Passed text source (symbols ++ fields.symbols) depths left := by
  match fields with
  | .nil =>
      rw [FieldTrees.symbols, List.append_nil]
      exact h
  | .cons key declared more =>
      simp only [FieldTrees.write, List.append_assoc, List.cons_append] at h
      have hkey := h.word key rfl
      have hcolon := hkey.mark .colon rfl rfl rfl
      have hdeclared := declared.passed hcolon.blank rfl
      have hsemicolon := hdeclared.mark .semicolon rfl rfl rfl
      have hmore := more.passed hsemicolon.blank
      simpa [FieldTrees.symbols] using hmore

/-- The pieces of a template are passed from the character that opens the first one. What is in a
substitution leaves no brace open, so the one behind it opens the next piece. -/
theorem PartTrees.passed {behindText : Bool} (parts : PartTrees behindText) {text : String}
    {source : SourceId} {symbols : List Symbol} {opened depths : List Nat} {c : Char}
    {left : List Char} {last part : Kind} (hopens : OpensPiece opened c depths last part)
    (before : String)
    (h : Passed text source symbols opened
      (c :: (escapeText before ++ (parts.write ++ left)))) :
    Passed text source (symbols ++ parts.symbols last part before) depths left := by
  match parts with
  | .nil => exact h.lastPiece hopens before
  | .text inside _ more =>
      rw [PartTrees.write, List.append_assoc, ← List.append_assoc, ← escapeText_append] at h
      exact more.passed hopens (before ++ inside) h
  | .type type more =>
      simp only [PartTrees.write, List.append_assoc, List.cons_append] at h
      have hpiece := h.piece hopens before
      have htype := type.passed hpiece.blank rfl
      have hmore := more.passed (opensPiece_brace depths) "" htype.blank
      simpa [PartTrees.symbols] using hmore

end

/-- A written type is lexed without a fault, and its tokens are on one line. -/
theorem TemplateTree.lex_source (tree : TemplateTree) (source : SourceId) :
    (lex tree.source source).errors = [] ∧
      (textStream tree.source source).Spells tree.symbols := by
  have hstart := Passed.start tree.source source
  have hchars : tree.source.toList = tree.write ++ [] := by
    rw [TemplateTree.source, String.toList_ofList, List.append_nil]
  rw [hchars] at hstart
  exact (tree.passed hstart rfl).atEnd

end DeclFile
