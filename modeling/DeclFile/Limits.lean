/-! # Limits of the reader -/

namespace DeclFile

/-- How deep constructs may nest and how many significant tokens a file may have. -/
structure Limits where
  maxDepth : Nat := 256
  maxTokens : Nat := 4000000
deriving DecidableEq, Repr

instance : Inhabited Limits := ⟨{}⟩

end DeclFile
