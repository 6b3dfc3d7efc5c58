import DeclFile.Parser.Statement
import DeclFile.Proofs.ImportTree
import DeclFile.Proofs.Quiet.Name

/-! # Reading imports and lists of names without a word

The words `type`, `as` and `from` may be names. What they are is decided by looking at two more
tokens at most, so it is said here for which names that comes out right. Where lines end between
the tokens does not matter.
-/

namespace DeclFile

namespace Kind

theorem isName_of_isBindingName {kind : Kind} (h : kind.isBindingName = true) : kind.isName = true :=
  (Bool.and_eq_true_iff.mp h).1

end Kind

theorem ModuleName.kind_symbol (name : ModuleName) :
    name.symbol.kind.isName = true ∨ name.symbol.kind = .stringLiteral := by
  cases name with
  | word found => exact .inl found.names
  | string => exact .inr rfl

namespace Parser

variable [Layout] {reach : Reach TokenStream} {symbol : Symbol} {before after : List Symbol}

namespace Gives

/-! ## Names and modules -/

theorem exportName (name : ModuleName) :
    Parser.exportName.Gives reach (name.symbol :: after) after
      fun ident => ident.blank = name.ident := by
  refine peekKind.known ?_
  by_cases hstring : name.symbol.kind = .stringLiteral
  · rw [kindAt_zero, if_pos hstring]
    exact readIdent
  · rw [kindAt_zero, if_neg hstring]
    refine peekKind.known ?_
    rw [kindAt_zero, if_pos (name.kind_symbol.resolve_right hstring)]
    exact readIdent

theorem stringLit {value : String} :
    Parser.stringLit.Gives reach (⟨.stringLiteral, value⟩ :: after) after
      fun literal => literal.blank = ⟨value, default⟩ :=
  (expect rfl).bind fun token htoken => .pure (by simp [StringLit.blank, htoken.text])

/-- A module is read where no attributes follow it. -/
theorem moduleSpecifier {value : String} (hafter : kindAt after 0 ≠ .identifier) :
    Parser.moduleSpecifier.Gives reach (⟨.stringLiteral, value⟩ :: after) after
      fun literal => literal.blank = ⟨value, default⟩ := by
  refine stringLit.bind fun literal hliteral => ?_
  have hskip : skipImportAttributes.Gives reach after after fun _ => True := by
    refine peek_kind.bind fun token ⟨hkind, _⟩ => (kindAhead 1).known ?_
    rw [if_neg (by simp [hkind, hafter])]
    exact .pure trivial
  exact hskip.bind fun _ _ => .pure hliteral

theorem endStatement : Parser.endStatement.Gives reach (.mark .semicolon :: after) after
    fun _ => True := by
  refine peek.bind fun token htoken => ?_
  rw [if_pos (by simpa using htoken.kind)]
  exact advance.bind fun _ _ => .pure trivial

/-! ## Lists of names -/

/-- Whether a specifier is type-only is found out, unless it merely looks so. -/
theorem specifierTypeOnly (tree : SpecifierTree Symbol) (hlooks : tree.looksTypeOnly = false)
    (hrenamed : ∀ symbol ∈ tree.renamed,
      symbol.kind.isName = true ∨ symbol.kind = .stringLiteral)
    (hafter : kindAt after 0 = .mark .comma ∨ kindAt after 0 = .mark .closeBrace) :
    Parser.specifierTypeOnly.Gives reach (tree.write ++ after) (tree.write ++ after)
      (· = tree.typeOnly) := by
  have hend : (kindAt after 0).isName = false ∧ kindAt after 0 ≠ .word .as ∧
      kindAt after 0 ≠ .stringLiteral := by
    rcases hafter with hafter | hafter <;> simp [hafter, Kind.isName, Kind.isKeyword]
  obtain ⟨typeOnly, name, renamed⟩ := tree
  refine peekKind.known ((kindAhead 1).known ((kindAhead 2).known ?_))
  cases typeOnly with
  | true =>
      rw [if_neg (by simp)]
      -- Behind the modifier the name may be `as`, which then is not taken for the word before an alias.
      by_cases has : name.symbol.kind = .word .as
      · rw [if_pos (by simpa using has)]
        refine .pure ?_
        cases renamed with
        | none => simp [hend.1]
        | some _ => simp
      · rw [if_neg (by simpa using has)]
        refine .pure ?_
        rcases name.kind_symbol with hname | hstring
        · simp [hname]
        · simp [hstring]
  | false =>
      by_cases htype : name.symbol.kind = .word .type
      · rw [if_neg (by simpa using htype)]
        -- The name is `type` itself, and must not look like the modifier of what follows it.
        cases renamed with
        | none =>
            rw [if_neg (by simpa using hend.2.1)]
            exact .pure (by simp [hend])
        | some symbol =>
            rw [if_pos (by simp)]
            have hsymbol : symbol.kind ≠ .word .as ∧ symbol.kind ≠ .stringLiteral := by
              simpa [SpecifierTree.looksTypeOnly, htype] using hlooks
            have hname : symbol.kind.isName = true :=
              (hrenamed symbol rfl).resolve_right hsymbol.2
            exact .pure (by simp [hname, hsymbol.1])
      · rw [if_pos (by simpa using htype)]
        exact .pure rfl

/-- Specifiers are read if each is read after its name was found to be type-only or not. -/
theorem specifiers {ι α γ : Type} {specifier : Bool → Parser (Span → α)} {erase : α → γ}
    {spell : ι → SpecifierTree Symbol} {value : ι → γ} (names : List ι) (trailing : Bool)
    (hlooks : ∀ name ∈ names, (spell name).looksTypeOnly = false)
    (hrenamed : ∀ name ∈ names, ∀ symbol ∈ (spell name).renamed,
      symbol.kind.isName = true ∨ symbol.kind = .stringLiteral)
    (hread : ∀ name ∈ names, ∀ rest, kindAt rest 0 = .mark .comma ∨ kindAt rest 0 = .mark .closeBrace →
      (specifier (spell name).typeOnly).Gives reach ((spell name).name.symbol ::
        (SpecifierTree.aliasClause (spell name).renamed ++ rest)) rest
        fun make => ∀ span, erase (make span) = value name) :
    (Parser.specifiers specifier).Gives reach (specifierList (names.map spell) trailing ++ after) after
      fun found => found.map erase = names.map value := by
  have hlist : specifierList (names.map spell) trailing ++ after = .mark .openBrace ::
      (commaList trailing (names.map fun name => (spell name).write) ++ .mark .closeBrace :: after) := by
    simp [specifierList, Function.comp_def]
  rw [hlist]
  refine (expect rfl).bind fun _ _ => ?_
  refine bind (P := fun found : List α => found.map erase = names.map value)
    (commaSeparated_list names trailing (by simp) (fun name _ => ?_) fun name hname rest hrest => ?_)
    fun found hfound => (expect rfl).bind fun _ _ => .pure hfound
  · obtain ⟨typeOnly, found, renamed⟩ := spell name
    cases typeOnly with
    | true => exact ⟨_, _, rfl, nofun, nofun⟩
    | false =>
        refine ⟨_, _, rfl, ?_, ?_⟩
        all_goals
          intro heq
          rcases found.kind_symbol with hkind | hkind
          all_goals simp [heq, Kind.isName, Kind.isKeyword] at hkind
  · refine bind (P := fun found : α => erase found = value name) (spanned ?_)
      fun found hfound => .pure ⟨rfl, by simp [hfound]⟩
    refine (specifierTypeOnly (spell name) (hlooks name hname) (hrenamed name hname) hrest).known ?_
    have hspecifier := hread name hname rest hrest
    generalize spell name = tree at hspecifier
    obtain ⟨typeOnly, found, renamed⟩ := tree
    cases typeOnly with
    | true => exact advance.bind fun _ _ => hspecifier
    | false => exact hspecifier

theorem importSpecifier (tree : ImportName)
    (hafter : kindAt after 0 = .mark .comma ∨ kindAt after 0 = .mark .closeBrace) :
    (Parser.importSpecifier tree.typeOnly).Gives reach (tree.name.symbol ::
      (SpecifierTree.aliasClause (tree.renamed.map BindingWord.symbol) ++ after)) after
      fun make => ∀ span, (make span).blank = tree.specifier := by
  obtain ⟨typeOnly, name, renamed⟩ := tree
  refine (exportName name).bind fun imported himported => ?_
  cases renamed with
  | none =>
      refine (skipIf_no ?_).known (.pure fun span => ?_)
      · rcases hafter with hafter | hafter <;> simp [hafter]
      · simp [ImportSpecifier.blank, ImportName.specifier, himported]
  | some word =>
      refine (skipIf_yes rfl).known ((ident word.binds).bind fun binding hbinding => .pure fun span => ?_)
      simp [ImportSpecifier.blank, ImportName.specifier, himported, hbinding, BindingWord.ident,
        BindingWord.symbol]

theorem exportSpecifier (tree : ExportName)
    (hafter : kindAt after 0 = .mark .comma ∨ kindAt after 0 = .mark .closeBrace) :
    (Parser.exportSpecifier tree.typeOnly).Gives reach (tree.name.symbol ::
      (SpecifierTree.aliasClause (tree.renamed.map ModuleName.symbol) ++ after)) after
      fun make => ∀ span, (make span).blank = tree.specifier := by
  obtain ⟨typeOnly, name, renamed⟩ := tree
  refine (exportName name).bind fun found hfound => ?_
  cases renamed with
  | none =>
      refine (skipIf_no ?_).known (.pure fun span => ?_)
      · rcases hafter with hafter | hafter <;> simp [hafter]
      · simp [ExportSpecifier.blank, ExportName.specifier, hfound]
  | some word =>
      refine (skipIf_yes rfl).known ?_
      refine (map (Q := fun exported? : Option Ident => exported?.map Ident.blank = some word.ident)
        ((exportName word).mono fun exported hexported => by simp [hexported])).bind
        fun exported? hexported => .pure fun span => ?_
      simp [ExportSpecifier.blank, ExportName.specifier, hfound, hexported]

theorem importNames (names : List ImportName) (trailing : Bool)
    (hlooks : ∀ name ∈ names, (name.spelled BindingWord.symbol).looksTypeOnly = false) :
    (Parser.specifiers Parser.importSpecifier).Gives reach
      (specifierList (names.map (SpecifierTree.spelled BindingWord.symbol)) trailing ++ after) after
      fun found => found.map ImportSpecifier.blank = names.map ImportName.specifier := by
  refine specifiers names trailing hlooks (fun name _ symbol hsymbol => ?_)
    fun name _ rest hrest => importSpecifier name hrest
  obtain ⟨word, -, rfl⟩ := Option.map_eq_some_iff.mp hsymbol
  exact .inl (Kind.isName_of_isBindingName word.binds)

theorem exportNames (names : List ExportName) (trailing : Bool)
    (hlooks : ∀ name ∈ names, (name.spelled ModuleName.symbol).looksTypeOnly = false) :
    (Parser.specifiers Parser.exportSpecifier).Gives reach
      (specifierList (names.map (SpecifierTree.spelled ModuleName.symbol)) trailing ++ after) after
      fun found => found.map ExportSpecifier.blank = names.map ExportName.specifier := by
  refine specifiers names trailing hlooks (fun name _ symbol hsymbol => ?_)
    fun name _ rest hrest => exportSpecifier name hrest
  obtain ⟨found, -, rfl⟩ := Option.map_eq_some_iff.mp hsymbol
  exact found.kind_symbol

/-! ## Imports -/

theorem importBindings (tree : BindingsTree)
    (hlooks : ∀ name ∈ tree.names, (name.spelled BindingWord.symbol).looksTypeOnly = false) :
    Parser.importBindings.Gives reach (tree.write ++ after) after
      fun bindings => bindings.blank = tree.bindings := by
  cases tree with
  | «namespace» name =>
      refine (skipIf_yes rfl).known ((expect rfl).bind fun _ _ => ?_)
      refine (ident name.binds).bind fun id hid => .pure ?_
      rw [ImportBindings.blank, hid]
      rfl
  | named names trailing =>
      have hstar : kindAt ((BindingsTree.named names trailing).write ++ after) 0 ≠ .mark .star := nofun
      refine (skipIf_no hstar).known ?_
      refine (importNames names trailing hlooks).bind fun found hfound => .pure ?_
      rw [ImportBindings.blank, hfound]
      rfl

/-- What stands between the default of a clause and the end. -/
theorem importClause (tree : ClauseTree) {value : String} (hafter : kindAt after 0 ≠ .identifier)
    (hlooks : ∀ bindings ∈ tree.bindings?, ∀ name ∈ bindings.names,
      (name.spelled BindingWord.symbol).looksTypeOnly = false) :
    Parser.importClause.Gives reach (tree.write ++ .word .from :: ⟨.stringLiteral, value⟩ :: after)
      after fun kind => kind.blank = (ImportForm.clause tree value).kind := by
  have hmodule (default : Option Ident) (bindings : Option ImportBindings)
      (hdefault : default.map Ident.blank = tree.default?.map BindingWord.ident)
      (hbindings : bindings.map ImportBindings.blank = tree.bindings?.map BindingsTree.bindings) :
      (do
        let _ ← Parser.expect (.word .from)
        return ImportKind.clause default bindings (← Parser.moduleSpecifier)).Gives reach
        (Symbol.word .from :: ⟨.stringLiteral, value⟩ :: after : List Symbol) after
        fun kind => kind.blank = (ImportForm.clause tree value).kind := by
    refine (expect rfl).bind fun _ _ => (moduleSpecifier hafter).bind fun literal hliteral => .pure ?_
    simp [ImportKind.blank, ImportForm.kind, hdefault, hbindings, hliteral]
  have hwith (default : Option Ident) (bindings : BindingsTree)
      (heq : tree.bindings? = some bindings)
      (hdefault : default.map Ident.blank = tree.default?.map BindingWord.ident) :
      (do
        let bindings ← some <$> Parser.importBindings
        let _ ← Parser.expect (.word .from)
        return ImportKind.clause default bindings (← Parser.moduleSpecifier)).Gives reach
        (bindings.write ++ Symbol.word .from :: ⟨.stringLiteral, value⟩ :: after : List Symbol) after
        fun kind => kind.blank = (ImportForm.clause tree value).kind := by
    refine (map (Q := fun found? : Option ImportBindings =>
      found?.map ImportBindings.blank = some bindings.bindings)
      ((importBindings bindings (hlooks bindings heq)).mono fun found hfound => by simp [hfound])).bind
      fun found? hfound => hmodule default found? hdefault ?_
    rw [hfound, heq]
    rfl
  have hident (name : BindingWord) (rest : List Symbol) :
      (some <$> Parser.ident).Gives reach (name.symbol :: rest) rest
        fun found? => ∃ id : Ident, found? = some id ∧ id.blank = name.ident :=
    map ((ident name.binds).mono fun id hid => ⟨id, rfl, hid⟩)
  refine peekKind.known ?_
  cases tree with
  | default name =>
      rw [if_pos (by exact name.binds)]
      refine (hident name _).bind ?_
      rintro _ ⟨id, rfl, hid⟩
      simp only [Option.isNone_some, Bool.false_eq_true, if_false]
      refine (skipIf_no (by exact nofun)).known ?_
      simp only [Bool.false_eq_true, if_false]
      exact pure_bind none (hmodule (some id) none (by simp [hid, ClauseTree.default?]) rfl)
  | bindings tree =>
      rw [if_neg (by cases tree <;> exact Bool.false_ne_true)]
      refine pure_bind none ?_
      simp only [Option.isNone_none, if_true]
      exact pure_bind true (hwith none tree rfl rfl)
  | both name tree =>
      rw [if_pos (by exact name.binds)]
      refine (hident name _).bind ?_
      rintro _ ⟨id, rfl, hid⟩
      simp only [Option.isNone_some, Bool.false_eq_true, if_false]
      refine (skipIf_yes rfl).known ?_
      simp only [if_true]
      exact hwith (some id) tree rfl (by simp [hid, ClauseTree.default?])

theorem importTarget (tree : TargetTree)
    (hafter : kindAt after 0 ≠ .mark .dot ∧ kindAt after 0 ≠ .mark .openParen) :
    Parser.importTarget.Gives reach (tree.write ++ after) after
      fun target => target.blank = tree.target := by
  cases tree with
  | require specifier =>
      refine peek.bind fun token htoken => (kindAhead 1).known ?_
      rw [if_pos (by simp [htoken.kind, htoken.text])]
      refine advance.bind fun _ _ => advance.bind fun _ _ => ?_
      refine stringLit.bind fun literal hliteral => (expect rfl).bind fun _ _ => .pure ?_
      rw [ImportTarget.blank, hliteral]
      rfl
  | entity name =>
      obtain ⟨kind, text, hopens, rest⟩ := name
      refine peek.bind fun token htoken => (kindAhead 1).known ?_
      rw [if_neg]
      · have hnames : ∀ segment ∈ rest.map NameWord.symbol, segment.kind.isName = true :=
          List.forall_mem_map.mpr fun segment _ => segment.names
        refine bind (entityName hopens hnames hafter.1) fun entity hentity => .pure ?_
        · rw [ImportTarget.blank, hentity]
          simp [TargetTree.target, EntityTree.entity, Symbol.entity, NameWord.symbol, Function.comp_def]
      · cases rest with
        | nil => simpa [TargetTree.write, EntityTree.write] using fun _ _ => hafter.2
        | cons segment rest => simp

/-- The form of an import after its keywords. -/
theorem importKind (form : ImportForm)
    (hlooks : ∀ name ∈ form.names, (name.spelled BindingWord.symbol).looksTypeOnly = false) :
    Parser.importKind.Gives reach (form.write ++ .mark .semicolon :: after)
      (.mark .semicolon :: after : List Symbol) fun kind => kind.blank = form.kind := by
  have hname {name : BindingWord} : name.symbol.kind ≠ .stringLiteral := kind_ne_of_binds rfl
  refine peekKind.known ((kindAhead 1).known ?_)
  cases form with
  | equals name target =>
      have hbinds : name.symbol.kind.isBindingName = true := name.binds
      have hwrite : (ImportForm.equals name target).write ++ .mark .semicolon :: after =
          name.symbol :: .mark .equals :: (target.write ++ .mark .semicolon :: after) := rfl
      rw [hwrite, kindAt_zero, if_neg hname, if_pos (by simp [hbinds])]
      refine (ident hbinds).bind fun id hid => advance.bind fun _ _ => ?_
      refine (importTarget target ⟨by simp, by simp⟩).bind fun found hfound => .pure ?_
      rw [ImportKind.blank, hid, hfound]
      rfl
  | clause tree value =>
      have hwrite : (ImportForm.clause tree value).write ++ .mark .semicolon :: after =
          tree.write ++ .word .from :: ⟨.stringLiteral, value⟩ :: .mark .semicolon :: after := by
        simp [ImportForm.write]
      have hnames : ∀ bindings ∈ tree.bindings?, ∀ name ∈ bindings.names,
          (name.spelled BindingWord.symbol).looksTypeOnly = false := by
        intro bindings hbindings name hmem
        exact hlooks name (by simpa [ImportForm.names, Option.mem_def.mp hbindings] using hmem)
      rw [hwrite, if_neg, if_neg]
      · exact importClause tree (by simp) hnames
      · cases tree with
        | default name => simp [ClauseTree.write]
        | bindings tree => cases tree <;> exact Bool.false_ne_true
        | both name tree => simp [ClauseTree.write]
      · cases tree with
        | default name => exact hname
        | bindings tree => cases tree <;> exact nofun
        | both name tree => exact hname

/-- Whether a whole import is type-only is found out, unless `from` names what it binds. -/
theorem importTypeOnly (tree : ImportTree)
    (hname : tree.typeOnly = true → ∀ name ∈ tree.form.name?, name.kind ≠ .word .from) :
    Parser.importTypeOnly.Gives reach
      (Symbol.onlyIf (.word .type) tree.typeOnly ++ (tree.form.write ++ after))
      (Symbol.onlyIf (.word .type) tree.typeOnly ++ (tree.form.write ++ after))
      (· = tree.typeOnly) := by
  obtain ⟨typeOnly, form⟩ := tree
  refine peekKind.known ((kindAhead 1).known (.pure ?_))
  cases typeOnly with
  | true =>
      have hsecond : kindAt (form.write ++ after) 0 = .mark .openBrace ∨
          kindAt (form.write ++ after) 0 = .mark .star ∨
          ((kindAt (form.write ++ after) 0).isBindingName = true ∧
            kindAt (form.write ++ after) 0 ≠ .word .from) := by
        cases form with
        | equals name target => exact .inr (.inr ⟨name.binds, hname rfl name rfl⟩)
        | clause tree value =>
            cases tree with
            | default name | both name tree => exact .inr (.inr ⟨name.binds, hname rfl name rfl⟩)
            | bindings tree =>
                cases tree with
                | «namespace» name => exact .inr (.inl rfl)
                | named names trailing => exact .inl rfl
      simpa [Symbol.onlyIf, or_assoc] using hsecond
  | false =>
      -- The word `type` is the name itself if what follows it is no name, or `from`.
      have hfirst : kindAt (form.write ++ after) 0 ≠ .word .type ∨
          (kindAt (form.write ++ after) 1 = .mark .comma ∨
            kindAt (form.write ++ after) 1 = .mark .equals ∨
            kindAt (form.write ++ after) 1 = .word .from) := by
        cases form with
        | equals name target => exact .inr (.inr (.inl rfl))
        | clause tree value =>
            cases tree with
            | default name => exact .inr (.inr (.inr rfl))
            | both name tree => exact .inr (.inl rfl)
            | bindings tree => cases tree <;> exact .inl Kind.noConfusion
      rcases hfirst with hfirst | hsecond | hsecond | hsecond
      · simp [Symbol.onlyIf, hfirst]
      all_goals simp [Symbol.onlyIf, hsecond, Kind.isBindingName, Kind.isName, Kind.isKeyword]

/-- An import is read as it is written. -/
theorem importStatement (tree : ImportTree)
    (hname : tree.typeOnly = true → ∀ name ∈ tree.form.name?, name.kind ≠ .word .from)
    (hlooks : ∀ name ∈ tree.form.names, (name.spelled BindingWord.symbol).looksTypeOnly = false) :
    Parser.importStatement.Gives reach (tree.write ++ after) after
      fun statement => statement.blank = ⟨.import tree.decl, default⟩ := by
  have hwrite : tree.write ++ after = .word .import :: (Symbol.onlyIf (.word .type) tree.typeOnly ++
      (tree.form.write ++ .mark .semicolon :: after)) := by
    simp [ImportTree.write]
  have hkind : (do
      let kind ← Parser.importKind
      Parser.endStatement
      return ImportDecl.mk tree.typeOnly kind).Gives reach
      (tree.form.write ++ Symbol.mark .semicolon :: after : List Symbol) after
      fun decl => ∀ span : Span, (Statement.mk (.import decl) span).blank =
        (⟨.import tree.decl, default⟩ : Statement) := by
    refine (importKind tree.form hlooks).bind fun kind hkind => endStatement.bind fun _ _ => .pure ?_
    intro span
    simp [ImportDecl.blank, ImportTree.decl, hkind]
  rw [hwrite]
  refine spanned (advance.bind fun _ _ => (importTypeOnly tree hname).known ?_)
  obtain ⟨typeOnly, form⟩ := tree
  cases typeOnly with
  | true => exact advance.bind fun _ _ => hkind
  | false => exact hkind

/-- A list of exported names is read as it is written. -/
theorem exportStatement (names : List ExportName) (trailing : Bool)
    (hlooks : ∀ name ∈ names, (name.spelled ModuleName.symbol).looksTypeOnly = false) :
    Parser.exportStatement.Gives reach (exportWrite names trailing ++ after) after
      fun statement => statement.blank =
        ⟨.export (.named false (names.map ExportName.specifier) none), default⟩ := by
  have hwrite : exportWrite names trailing ++ after = .word .export ::
      (specifierList (names.map (SpecifierTree.spelled ModuleName.symbol)) trailing ++
        .mark .semicolon :: after) := by
    simp [exportWrite]
  rw [hwrite]
  refine spanned (advance.bind fun _ _ => peekKind.known ((kindAhead 1).known ?_))
  refine (exportNames names trailing hlooks).bind fun found hfound => ?_
  refine (skipIf_no (by simp)).known ?_
  refine pure_bind none (endStatement.bind fun _ _ => .pure fun span => ?_)
  simp [hfound]

/-! ## Statements -/

theorem statement_import (tree : ImportTree)
    (hname : tree.typeOnly = true → ∀ name ∈ tree.form.name?, name.kind ≠ .word .from)
    (hlooks : ∀ name ∈ tree.form.names, (name.spelled BindingWord.symbol).looksTypeOnly = false) :
    (Parser.statement false).Gives reach (tree.write ++ after) after
      fun statement => statement.blank = ⟨.import tree.decl, default⟩ := by
  refine peekKind.known ((kindAhead 1).known ?_)
  -- Neither an expression nor a type begins with these tokens.
  have hsecond : kindAt (tree.write ++ after) 1 ≠ .mark .openParen ∧
      kindAt (tree.write ++ after) 1 ≠ .mark .dot := by
    obtain ⟨typeOnly, form⟩ := tree
    cases typeOnly with
    | true => exact ⟨nofun, nofun⟩
    | false =>
        cases form with
        | equals name target => exact ⟨kind_ne_of_binds rfl, kind_ne_of_binds rfl⟩
        | clause tree value =>
            cases tree with
            | default name | both name tree => exact ⟨kind_ne_of_binds rfl, kind_ne_of_binds rfl⟩
            | bindings tree => cases tree <;> exact ⟨nofun, nofun⟩
  simp only [hsecond, decide_false, Bool.or_false, Bool.false_eq_true, if_false]
  exact importStatement tree hname hlooks

theorem statement_export (names : List ExportName) (trailing : Bool)
    (hlooks : ∀ name ∈ names, (name.spelled ModuleName.symbol).looksTypeOnly = false) :
    (Parser.statement false).Gives reach (exportWrite names trailing ++ after) after
      fun statement => statement.blank =
        ⟨.export (.named false (names.map ExportName.specifier) none), default⟩ := by
  refine peekKind.known ((kindAhead 1).known ?_)
  exact exportStatement names trailing hlooks

end Gives

end Parser

end DeclFile
