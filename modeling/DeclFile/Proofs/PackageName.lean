import DeclFile.Package
import DeclFile.Proofs.TemplateLexing

/-! # The name that binds a package is a word

The specifier of a package may hold characters that no identifier has. What is left of it without
its scope, with those replaced, is read as a single word: an identifier, or a keyword if the
package is called like one. So it can bind the package unless that keyword is reserved.
-/

namespace DeclFile

open Unicode

/-! ## Words -/

/-- The kind of a word. -/
def wordKind (text : String) : Kind :=
  match Keyword.ofSpelling? text with
  | some keyword => .word keyword
  | none => .identifier

theorem wordKind_isName (text : String) : (wordKind text).isName = true := by
  unfold wordKind
  split <;> rfl

/-- Only a word that is spelled like a reserved keyword cannot name a binding. -/
theorem wordKind_isBindingName (text : String) :
    (wordKind text).isBindingName = true ↔ ∀ keyword ∈ Keyword.reserved, keyword.spelling ≠ text := by
  rw [Kind.isBindingName, wordKind_isName, Bool.true_and, Bool.not_eq_true', wordKind]
  cases hword : Keyword.ofSpelling? text with
  | none =>
      refine iff_of_true rfl fun keyword _ hspelling => ?_
      rw [← hspelling, Keyword.ofSpelling?_spelling] at hword
      cases hword
  | some found =>
      have hfound : found.spelling = text := by
        simpa using List.find?_some hword
      simp only [Kind.isReserved, Keyword.isReserved, List.contains_eq_mem, decide_eq_false_iff_not]
      constructor
      · rintro hunreserved keyword hkeyword rfl
        rw [Keyword.ofSpelling?_spelling] at hword
        exact hunreserved (Option.some.inj hword ▸ hkeyword)
      · intro hdistinct hreserved
        exact hdistinct found hreserved hfound

/-- A text that is one word is one token. -/
theorem lex_word {first : Char} {more : List Char} (hfirst : isIdentifierStart first = true)
    (hmore : ∀ c ∈ more, isIdentifierContinue c = true) (source : SourceId) :
    ∃ span stop, lex (String.ofList (first :: more)) source =
      ⟨[⟨wordKind (String.ofList (first :: more)), String.ofList (first :: more), span, false⟩,
          ⟨.endOfText, "", stop, false⟩], []⟩ := by
  have hspace : isWhiteSpace first = false := by
    by_contra hspace
    rw [Bool.not_eq_false] at hspace
    exact Bool.false_ne_true ((isIdentifierStart_of_isWhiteSpace hspace).symm.trans hfirst)
  have hread : Lexeme.read [] first more =
      .plain [] (wordKind (String.ofList (first :: more))) more.length := by
    rw [Lexeme.read_of_isIdentifierStart hfirst, Lexeme.word, List.takeWhile_eq_self_iff.mpr hmore]
    rfl
  have hlex : lex (String.ofList (first :: more)) source =
      lexFrom source 0 .initial (String.ofList (first :: more)).toList := rfl
  have hstate : LexState.initial.afterLexeme first more
      (.plain [] (wordKind (String.ofList (first :: more))) more.length) =
        ⟨Pos.start.after first, [], false⟩ := by
    unfold wordKind
    split <;> rfl
  refine ⟨⟨source, .start, Pos.start.through (first :: more)⟩,
    .point source (Pos.start.through (first :: more)), ?_⟩
  rw [hlex, String.toList_ofList, lexFrom_lexeme source _ _ _ hspace hread, lexFrom,
    piecesOnto_skip, hstate]
  simp only [Lexeme.plain, List.drop_length, List.take_length, piecesOnto, LexState.piece]
  rfl

/-! ## Specifiers -/

/-- A package specifier: a name, perhaps behind a scope. -/
structure PackageSpecifier where
  scope? : Option (List Char)
  name : List Char
  nonempty : name ≠ []
  name_chars : ∀ c ∈ name, c.isAlphanum = true ∨ c ∈ ['_', '-', '.', '/']
  scope_chars : ∀ scope ∈ scope?, ∀ c ∈ scope, c.isAlphanum = true ∨ c ∈ ['_', '-', '.']

namespace PackageSpecifier

def text (specifier : PackageSpecifier) : String :=
  match specifier.scope? with
  | some scope => String.ofList ('@' :: (scope ++ '/' :: specifier.name))
  | none => String.ofList specifier.name

/-- A specifier without its scope is its name. -/
theorem unscoped_text (specifier : PackageSpecifier) :
    Package.unscoped specifier.text.toList = specifier.name := by
  obtain ⟨scope?, name, hname, hchars, hscope⟩ := specifier
  cases scope? with
  | none =>
      obtain ⟨c, name, rfl⟩ := List.exists_cons_of_ne_nil hname
      have hat : c ≠ '@' := by
        rintro rfl
        exact absurd (hchars '@' List.mem_cons_self) (by decide)
      rw [text, String.toList_ofList, Package.unscoped]
      simp only
      intro rest hrest
      exact absurd (List.cons.inj hrest).1 hat
  | some scope =>
      have hplain : ∀ c ∈ scope, (c != '/') = true := by
        intro c hc
        rw [bne_iff_ne]
        rintro rfl
        exact absurd (hscope scope rfl '/' hc) (by decide)
      rw [text, String.toList_ofList, Package.unscoped, List.dropWhile_append_of_pos hplain]
      rfl

end PackageSpecifier

namespace Package

/-- Letters and digits of ASCII are such in every alphabet. -/
theorem toNat_lt_of_isAlphanum {c : Char} (h : c.isAlphanum = true) : c.toNat < 0x80 := by
  change (decide (c.val ≥ 'A'.val ∧ c.val ≤ 'Z'.val) ||
    decide (c.val ≥ 'a'.val) && decide (c.val ≤ 'z'.val) ||
    decide (c.val ≥ '0'.val) && decide (c.val ≤ '9'.val)) = true at h
  simp only [Bool.or_eq_true, Bool.and_eq_true, decide_eq_true_eq, ge_iff_le,
    UInt32.le_iff_toNat_le] at h
  have hcode : c.toNat = c.val.toNat := rfl
  have hz : 'z'.val.toNat = 0x7A := rfl
  have hZ : 'Z'.val.toNat = 0x5A := rfl
  have hnine : '9'.val.toNat = 0x39 := rfl
  omega

theorem isIdentifierContinue_of_isAlphanum {c : Char} (h : c.isAlphanum = true) :
    isIdentifierContinue c = true := by
  have hascii := toNat_lt_of_isAlphanum h
  rw [Char.isAlphanum, Bool.or_eq_true] at h
  simp only [isIdentifierContinue, isAlphanumeric, isAlphabetic, isNumeric, if_pos hascii,
    Bool.or_eq_true]
  exact .inr h

/-- What can go on an identifier and is no digit can begin one, in ASCII. -/
theorem isIdentifierStart_of_isAlphanum {c : Char} (h : c.isAlphanum = true)
    (hdigit : c.isDigit = false) : isIdentifierStart c = true := by
  have hascii := toNat_lt_of_isAlphanum h
  rw [Char.isAlphanum, hdigit, Bool.or_false] at h
  simp only [isIdentifierStart, isAlphabetic, if_pos hascii, h, Bool.or_true]

/-- A character of a name stays what it is unless it separates. -/
theorem identifierChar_cases {c : Char} (h : c.isAlphanum = true ∨ c ∈ ['_', '-', '.', '/']) :
    c.isAlphanum = true ∧ identifierChar c = c ∨ identifierChar c = '_' := by
  obtain hplain | hmark := h
  · unfold identifierChar
    split
    · exact .inr rfl
    · exact .inl ⟨hplain, rfl⟩
  · simp only [List.mem_cons, List.not_mem_nil, or_false] at hmark
    rcases hmark with rfl | rfl | rfl | rfl <;> exact .inr rfl

theorem identifierChar_eq_self {c : Char} (h : identifierChar c ≠ '_') : identifierChar c = c := by
  unfold identifierChar at h ⊢
  split
  next hseparates => exact absurd (if_pos hseparates) h
  next => rfl

theorem map_identifierChar_eq_self {name : List Char} (h : ∀ c ∈ name, identifierChar c = c) :
    name.map identifierChar = name :=
  (List.map_congr_left h).trans (List.map_id' name)

/-- What binds a package is a word. -/
theorem exists_word_bindingName (specifier : PackageSpecifier) :
    ∃ first more, bindingName specifier.text = String.ofList (first :: more) ∧
      isIdentifierStart first = true ∧ ∀ c ∈ more, isIdentifierContinue c = true := by
  have hcontinues : ∀ c ∈ specifier.name.map identifierChar, isIdentifierContinue c = true := by
    intro c hc
    obtain ⟨before, hbefore, rfl⟩ := List.mem_map.mp hc
    obtain ⟨hplain, heq⟩ | heq := identifierChar_cases (specifier.name_chars before hbefore)
    · exact heq.symm ▸ isIdentifierContinue_of_isAlphanum hplain
    · rw [heq]
      decide
  obtain ⟨c, name, hname⟩ := List.exists_cons_of_ne_nil specifier.nonempty
  rw [bindingName, specifier.unscoped_text]
  rw [hname, List.map_cons] at hcontinues ⊢
  simp only [List.head?_cons, Option.any_some]
  by_cases hdigit : (identifierChar c).isDigit = true
  · exact ⟨'_', _, congrArg String.ofList (if_pos hdigit), by decide, hcontinues⟩
  · refine ⟨identifierChar c, name.map identifierChar, congrArg String.ofList (if_neg hdigit), ?_,
      fun other hother => hcontinues other (.tail _ hother)⟩
    have hc : c ∈ specifier.name := hname ▸ List.mem_cons_self
    obtain ⟨hplain, heq⟩ | heq := identifierChar_cases (specifier.name_chars c hc)
    · rw [heq] at hdigit ⊢
      exact isIdentifierStart_of_isAlphanum hplain (by simpa using hdigit)
    · rw [heq]
      decide

/-- A package is bound to a keyword only if it is called like that. -/
theorem bindingName_eq_spelling_iff (specifier : PackageSpecifier) (keyword : Keyword) :
    bindingName specifier.text = keyword.spelling ↔ specifier.name = keyword.spelling.toList := by
  -- No keyword has an underscore, a separator or a digit, so nothing was replaced or added.
  have hall : (keyword.spelling.toList.all fun c =>
      c != '_' && (identifierChar c == c && !c.isDigit)) = true := by
    cases keyword <;> decide
  have hplain : ∀ c ∈ keyword.spelling.toList,
      c ≠ '_' ∧ identifierChar c = c ∧ c.isDigit = false := by simpa using hall
  rw [bindingName, specifier.unscoped_text]
  generalize specifier.name = name
  constructor
  · intro heq
    have hword := congrArg String.toList heq
    rw [String.toList_ofList] at hword
    split at hword
    next =>
      rw [← hword] at hplain
      exact absurd rfl (hplain '_' List.mem_cons_self).1
    next =>
      rw [← hword] at hplain ⊢
      refine (map_identifierChar_eq_self fun c hc => ?_).symm
      exact identifierChar_eq_self (hplain _ (List.mem_map_of_mem hc)).1
  · rintro rfl
    rw [map_identifierChar_eq_self fun c hc => (hplain c hc).2.1, if_neg, String.ofList_toList]
    cases hchars : keyword.spelling.toList with
    | nil => simp
    | cons c rest =>
        have hdigit := (hplain c (hchars ▸ List.mem_cons_self)).2.2
        simp [hdigit]

end Package

/-- What binds a package is lexed as a single word without an error. That word can name a binding
unless the package, without its scope, is called like a reserved keyword. -/
theorem lex_bindingName (specifier : PackageSpecifier) (source : SourceId) :
    ∃ token stop, lex (Package.bindingName specifier.text) source =
        ⟨[token, ⟨.endOfText, "", stop, false⟩], []⟩ ∧
      token.text = Package.bindingName specifier.text ∧ token.kind.isName = true ∧
      (token.kind.isBindingName = true ↔
        ∀ keyword ∈ Keyword.reserved, specifier.name ≠ keyword.spelling.toList) := by
  obtain ⟨first, more, hname, hfirst, hmore⟩ := Package.exists_word_bindingName specifier
  obtain ⟨span, stop, hlex⟩ := lex_word hfirst hmore source
  rw [← hname] at hlex
  refine ⟨_, stop, hlex, rfl, wordKind_isName _, ?_⟩
  rw [wordKind_isBindingName]
  refine forall₂_congr fun keyword _ => not_congr ?_
  rw [eq_comm, Package.bindingName_eq_spelling_iff]

/-- A package in a scope, with a name that has a digit in front and a dash inside. -/
def scopedPackage : PackageSpecifier where
  scope? := some ['t', 'y', 'p', 'e', 's']
  name := ['7', 'z', 'i', 'p', '-', 'b', 'i', 'n']
  nonempty := by decide
  name_chars := by
    simp only [List.forall_mem_cons, List.not_mem_nil, false_imp_iff, implies_true, and_true]
    decide
  scope_chars := by
    rintro _ ⟨⟩
    simp only [List.forall_mem_cons, List.not_mem_nil, false_imp_iff, implies_true, and_true]
    decide

theorem lex_bindingName_scopedPackage :
    scopedPackage.text = "@types/7zip-bin" ∧
      Package.bindingName scopedPackage.text = "_7zip_bin" ∧
      ∃ token stop, lex "_7zip_bin" ⟨0⟩ = ⟨[token, ⟨.endOfText, "", stop, false⟩], []⟩ ∧
        token.text = "_7zip_bin" ∧ token.kind.isBindingName = true := by
  have hname : Package.bindingName scopedPackage.text = "_7zip_bin" := by decide +kernel
  have hunreserved : ∀ keyword ∈ Keyword.reserved,
      scopedPackage.name ≠ keyword.spelling.toList := by decide +kernel
  obtain ⟨token, stop, hlex, htext, -, hbinding⟩ := lex_bindingName scopedPackage ⟨0⟩
  rw [hname] at hlex htext
  exact ⟨by decide +kernel, hname, token, stop, hlex, htext, hbinding.mpr hunreserved⟩

/-- The name of a package that is called like a reserved keyword cannot bind anything. -/
theorem bindingName_reserved :
    Package.bindingName "class" = "class" ∧
      (lex (Package.bindingName "class") ⟨0⟩).tokens.map (·.kind.isBindingName) = [false, false] := by
  decide +kernel

end DeclFile
