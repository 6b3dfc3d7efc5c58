import DeclFile.Limits
import DeclFile.Toml.Document

/-! # Settings

The limits of the reader can be set in the `parser` table of a TOML document. Other tables
and keys belong to other tools and are passed over.
-/

namespace DeclFile

open Toml

namespace Settings

/-- A limit given as a value, which must be an integer that is not negative. -/
def limit? : Value → Option Nat
  | .integer number => if 0 ≤ number then some number.toNat else none
  | _ => none

/-- The limit under a key, or `default` where the table has none. -/
def limitAt? (table : Table) (key : String) (default : Nat) : Option Nat :=
  match table.get? key with
  | some value => limit? value
  | none => some default

/-- The limits in a value. A table names them, and a list gives both in order. A date is
passed over like a table without them. -/
def limits? : Value → Option Limits
  | .table table => do
      let defaults : Limits := default
      return ⟨← limitAt? table "max_depth" defaults.maxDepth,
        ← limitAt? table "max_tokens" defaults.maxTokens⟩
  | .array (depth :: tokens :: _) => do return ⟨← limit? depth, ← limit? tokens⟩
  | .date _ => some default
  | _ => none

/-- The limits in a document, or nothing where it is malformed or they are. -/
def read? (text : String) : Option Limits := do
  let root ← Toml.parse? text
  match root.get? "parser" with
  | some value => limits? value
  | none => return default

end Settings

end DeclFile
