import DeclFile.Parsed
import DeclFile.Proofs.Occurrence

/-! # Reading the text of a type again

The stretch of a text that a type was read from is a text of its own. Read again, it does not
always give the same kind of type: the word `intrinsic` is a name or a primitive type, and which
of them depends on the token behind it.
-/

namespace DeclFile

/-- The characters of the text that the span covers. -/
def Span.slice (span : Span) (text : String) : String :=
  String.Pos.Raw.extract text ⟨span.start.offset⟩ ⟨span.stop.offset⟩

/-- A property whose type is the word `intrinsic`, and a signature in the next line. -/
def intrinsicProperty : String := "\x7b a: intrinsic\n<T>(x: T): void \x7d"

/-- In front of the signature the word is read as a name, by itself as a primitive type. -/
theorem intrinsic_changes :
    (parseType intrinsicProperty).2 = [] ∧
    ∃ occurrence ∈ ((parseType intrinsicProperty).1.map (Ty.occurrences .other)).getD [],
      (∃ reference, occurrence.type.kind = .reference reference) ∧
      occurrence.type.span.slice intrinsicProperty = "intrinsic" ∧
      (parseType "intrinsic").2 = [] ∧
      ∃ found, (parseType "intrinsic").1 = some found ∧ found.kind = .primitive .intrinsic := by
  have hname : (((parseType intrinsicProperty).1.map (Ty.occurrences .other)).getD []).any
      (fun occurrence => (match occurrence.type.kind with | .reference _ => true | _ => false) &&
        occurrence.type.span.slice intrinsicProperty == "intrinsic") = true := by
    decide +kernel
  have hprimitive : (parseType "intrinsic").1.any
      (fun found => match found.kind with | .primitive .intrinsic => true | _ => false) = true := by
    decide +kernel
  obtain ⟨occurrence, hmem, hname⟩ := List.any_eq_true.mp hname
  obtain ⟨hname, hslice⟩ := Bool.and_eq_true_iff.mp hname
  refine ⟨by decide +kernel, occurrence, hmem, ?_, beq_iff_eq.mp hslice, by decide +kernel, ?_⟩
  · split at hname
    next reference heq => exact ⟨reference, heq⟩
    next => cases hname
  · cases hfound : (parseType "intrinsic").1 with
    | none => simp [hfound] at hprimitive
    | some found =>
        simp only [hfound, Option.any_some] at hprimitive
        split at hprimitive
        next heq => exact ⟨found, rfl, heq⟩
        next => cases hprimitive

end DeclFile
