import DeclFile.Proofs.Quiet.File
import DeclFile.Proofs.Quiet.Import

/-! # Imports and exported names are read as they are written

A file that is one import, or one list of exported names, is read back up to spans, with nothing
reported. The words `type`, `as` and `from` may be names in them, but not everywhere: an alias `as`
or a string makes a name `type` look type-only, and after the keyword `type` a `from` is not taken
for a name. Both are shown to be misread.
-/

namespace DeclFile

/-- An import of the names from the module. -/
def namedImport (names : List ImportName) (trailing : Bool) (value : String) : ImportTree :=
  ⟨false, .clause (.bindings (.named names trailing)) value⟩

/-- Lists of imported and of exported names are read as they are written, with a comma after the last
name or without, if no name merely looks type-only. -/
theorem parseTokens_specifiers (trailing : Bool) (source : SourceId) (limits : Limits) :
    (∀ (names : List ImportName) (value : String) (tokens : TokenStream),
      (∀ name ∈ names, (name.spelled BindingWord.symbol).looksTypeOnly = false) →
      tokens.Matches (namedImport names trailing value).write →
      tokens.directives = [] → tokens.size ≤ limits.maxTokens →
      (parseTokens tokens source limits).module.statements.map Statement.blank =
          [⟨.import ⟨false, .clause none (some (.named (names.map ImportName.specifier)))
            ⟨value, default⟩⟩, default⟩] ∧
        (parseTokens tokens source limits).diagnostics = []) ∧
    (∀ (names : List ExportName) (tokens : TokenStream),
      (∀ name ∈ names, (name.spelled ModuleName.symbol).looksTypeOnly = false) →
      tokens.Matches (exportWrite names trailing) →
      tokens.directives = [] → tokens.size ≤ limits.maxTokens →
      (parseTokens tokens source limits).module.statements.map Statement.blank =
          [⟨.export (.named false (names.map ExportName.specifier) none), default⟩] ∧
        (parseTokens tokens source limits).diagnostics = []) := by
  constructor
  · intro names value tokens hlooks hwritten hdirectives hsize
    let _ := Layout.lines tokens.finished
    rw [← List.append_nil (namedImport names trailing value).write] at hwritten
    exact parseTokens_written source hdirectives hsize hwritten.heads rfl ⟨nofun, nofun⟩
      (Parser.Gives.statement_import (namedImport names trailing value) nofun hlooks)
  · intro names tokens hlooks hwritten hdirectives hsize
    let _ := Layout.lines tokens.finished
    rw [← List.append_nil (exportWrite names trailing)] at hwritten
    exact parseTokens_written source hdirectives hsize hwritten.heads rfl ⟨nofun, nofun⟩
      (Parser.Gives.statement_export names trailing hlooks)

/-- The names `type` renamed to `x`, and, type-only, `as` renamed to `as`, `type` and a string. -/
def keywordNames : List ImportName :=
  [⟨false, .word (.ofKeyword .type), some (.ofText "x")⟩,
    ⟨true, .word (.ofKeyword .as), some (.ofKeyword .as (Eq.refl true))⟩,
    ⟨true, .word (.ofKeyword .type), none⟩,
    ⟨true, .string "y z", some (.ofKeyword .type (Eq.refl true))⟩]

/-- Their tokens in an import, as they are lexed. -/
def keywordNamesTokens : TokenStream :=
  .ofTokens (lex
    "import \x7b type as x, type as as as, type type, type 'y z' as type, \x7d from 'm';" ⟨0⟩).tokens

/-- The names `type` and, type-only, `default` renamed to a string. -/
def keywordExports : List ExportName :=
  [⟨false, .word (.ofKeyword .type), none⟩,
    ⟨true, .word (.ofKeyword .default), some (.string "y z")⟩]

def keywordExportsTokens : TokenStream :=
  .ofTokens (lex "export \x7b type, type default as 'y z', \x7d;" ⟨0⟩).tokens

theorem parseTokens_specifiers_keywords :
    (keywordNamesTokens.Matches (namedImport keywordNames true "m").write ∧
      (parseTokens keywordNamesTokens ⟨0⟩ ⟨0, 100⟩).module.statements.map Statement.blank =
        [⟨.import ⟨false, .clause none (some (.named (keywordNames.map ImportName.specifier)))
          ⟨"m", default⟩⟩, default⟩] ∧
      (parseTokens keywordNamesTokens ⟨0⟩ ⟨0, 100⟩).diagnostics = []) ∧
    keywordExportsTokens.Matches (exportWrite keywordExports true) ∧
      (parseTokens keywordExportsTokens ⟨0⟩ ⟨0, 100⟩).module.statements.map Statement.blank =
        [⟨.export (.named false (keywordExports.map ExportName.specifier) none), default⟩] ∧
      (parseTokens keywordExportsTokens ⟨0⟩ ⟨0, 100⟩).diagnostics = [] := by
  have hnames : keywordNamesTokens.Matches (namedImport keywordNames true "m").write ∧
      keywordNamesTokens.directives = [] ∧ keywordNamesTokens.size ≤ 100 := by
    decide +kernel
  have hexports : keywordExportsTokens.Matches (exportWrite keywordExports true) ∧
      keywordExportsTokens.directives = [] ∧ keywordExportsTokens.size ≤ 100 := by
    decide +kernel
  have hread := parseTokens_specifiers true ⟨0⟩ ⟨0, 100⟩
  refine ⟨⟨hnames.1, ?_⟩, hexports.1, ?_⟩
  · exact hread.1 keywordNames "m" keywordNamesTokens (by decide) hnames.1 hnames.2.1 hnames.2.2
  · exact hread.2 keywordExports keywordExportsTokens (by decide) hexports.1 hexports.2.1 hexports.2.2

/-- The name `type` renamed to `as`. -/
def typeAsAs : ImportName :=
  ⟨false, .word (.ofKeyword .type), some (.ofKeyword .as (Eq.refl true))⟩

/-- The name `type` renamed to a string. -/
def typeAsString : ExportName := ⟨false, .word (.ofKeyword .type), some (.string "x")⟩

def typeAsAsTokens : TokenStream :=
  .ofTokens (lex "import \x7b type as as \x7d from 'm';" ⟨0⟩).tokens

def typeAsStringTokens : TokenStream :=
  .ofTokens (lex "export \x7b type as 'x' \x7d;" ⟨0⟩).tokens

/-- A name `type` is refused with the alias `as` in an import, and with a string in an export. -/
theorem specifiers_misread :
    (typeAsAsTokens.Matches (namedImport [typeAsAs] false "m").write ∧
      (parseTokens typeAsAsTokens ⟨0⟩ default).diagnostics ≠ []) ∧
    typeAsStringTokens.Matches (exportWrite [typeAsString] false) ∧
      (parseTokens typeAsStringTokens ⟨0⟩ default).diagnostics ≠ [] := by
  decide +kernel

/-- Every import is read as it is written, if what it binds is not called `from` after the keyword
`type`, and no name in braces merely looks type-only. -/
theorem parseTokens_import (tree : ImportTree) (tokens : TokenStream) (source : SourceId)
    (limits : Limits)
    (hname : tree.typeOnly = true → ∀ name ∈ tree.form.name?, name.kind ≠ .word .from)
    (hlooks : ∀ name ∈ tree.form.names, (name.spelled BindingWord.symbol).looksTypeOnly = false)
    (hwritten : tokens.Matches tree.write) (hdirectives : tokens.directives = [])
    (hsize : tokens.size ≤ limits.maxTokens) :
    (parseTokens tokens source limits).module.statements.map Statement.blank =
        [⟨.import tree.decl, default⟩] ∧
      (parseTokens tokens source limits).diagnostics = [] := by
  let _ := Layout.lines tokens.finished
  rw [← List.append_nil tree.write] at hwritten
  exact parseTokens_written source hdirectives hsize hwritten.heads rfl ⟨nofun, nofun⟩
    (Parser.Gives.statement_import tree hname hlooks)

/-- The import `import type type, * as from from 'm';`. -/
def typeImport : ImportTree :=
  ⟨true, .clause (.both (.ofKeyword .type (Eq.refl true)) (.namespace (.ofKeyword .from (Eq.refl true))))
    "m"⟩

def typeImportTokens : TokenStream :=
  .ofTokens (lex "import type type, * as from from 'm';" ⟨0⟩).tokens

theorem parseTokens_import_type :
    typeImportTokens.Matches typeImport.write ∧
      (parseTokens typeImportTokens ⟨0⟩ ⟨0, 100⟩).module.statements.map Statement.blank =
        [⟨.import typeImport.decl, default⟩] ∧
      (parseTokens typeImportTokens ⟨0⟩ ⟨0, 100⟩).diagnostics = [] := by
  have htokens : typeImportTokens.Matches typeImport.write ∧ typeImportTokens.directives = [] ∧
      typeImportTokens.size ≤ 100 := by
    decide +kernel
  exact ⟨htokens.1, parseTokens_import typeImport typeImportTokens ⟨0⟩ ⟨0, 100⟩ (fun _ => by decide)
    (by decide) htokens.1 htokens.2.1 htokens.2.2⟩

/-- A type-only import of a default called `from`. -/
def typeFrom : ImportTree := ⟨true, .clause (.default (.ofKeyword .from (Eq.refl true))) "m"⟩

def typeFromTokens : TokenStream :=
  .ofTokens (lex "import type from from 'm';" ⟨0⟩).tokens

/-- After the keyword `type`, no name `from` is read. -/
theorem import_misread :
    typeFromTokens.Matches typeFrom.write ∧
      (parseTokens typeFromTokens ⟨0⟩ default).diagnostics ≠ [] := by
  decide +kernel

end DeclFile
