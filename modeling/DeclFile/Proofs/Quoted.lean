import DeclFile.Proofs.Lookahead

/-! # Quoted bodies unit by unit

The body of a string or of a template is read in units: one character, or a backslash with all
that its escape takes. Behind a unit reading goes on as if the body began there.
-/

namespace DeclFile

namespace Escape

theorem length_read_le (rest : List Char) : (read rest).length ≤ rest.length := by
  rcases rest with _ | ⟨c, rest⟩
  · exact Nat.le_refl 0
  rw [List.length_cons]
  by_cases hx : c = 'x'
  · subst hx
    have hdigits := (List.takeWhile_sublist (l := rest.take 2) isHexDigit).length_le
    rw [List.length_take] at hdigits
    rw [read_x, length_numbered]
    omega
  by_cases hu : c = 'u'
  · subst hu
    rcases rest with _ | ⟨d, rest⟩
    · exact Nat.le_refl 1
    by_cases hd : d = '\x7b'
    · subst hd
      rw [read_brace, length_numbered, List.length_cons]
      omega
    · have hdigits := (List.takeWhile_sublist (l := (d :: rest).take 4) isHexDigit).length_le
      rw [List.length_take] at hdigits
      rw [read_u_of_ne hd, length_numbered]
      omega
  · have hone : (read [c]).length ≤ 1 := by
      unfold read
      split <;> simp_all
    rw [read_cons_of_ne hx hu rest []]
    omega

end Escape

namespace Body

/-- The body behind `length` more characters, which add `text`. -/
def behind (text : List Char) (length : Nat) (body : Body) : Body :=
  ⟨text ++ body.text, length + body.length, body.ending⟩

variable {quote : Char}

theorem prepend_behind (text more : List Char) (length : Nat) (body : Body) :
    (body.behind more length).prepend text = body.behind (text ++ more) (length + 1) := by
  simp only [prepend, behind, List.append_assoc, Nat.add_right_comm]

theorem behind_behind (first second : List Char) (m n : Nat) (body : Body) :
    (body.behind second n).behind first m = body.behind (first ++ second) (m + n) := by
  simp only [behind, List.append_assoc, Nat.add_assoc]

theorem readString_skip (quote : Char) (inside rest : List Char) :
    readString quote inside.length (inside ++ rest) =
      (readString quote 0 rest).behind [] inside.length := by
  induction inside with
  | nil => simp only [behind, List.nil_append, List.length_nil, Nat.zero_add]
  | cons c inside ih =>
      rw [List.length_cons, List.cons_append, readString, ih, prepend_behind, List.append_nil]

theorem readTemplate_skip (inside rest : List Char) :
    readTemplate inside.length (inside ++ rest) =
      (readTemplate 0 rest).behind [] inside.length := by
  induction inside with
  | nil => simp only [behind, List.nil_append, List.length_nil, Nat.zero_add]
  | cons c inside ih =>
      rw [List.length_cons, List.cons_append, readTemplate, ih, prepend_behind, List.append_nil]

/-- A backslash and what its escape takes are read as what the escape stands for. -/
theorem readString_escape (inside : List Char) {text rest : List Char}
    (h : Escape.read (inside ++ rest) = ⟨text, inside.length⟩) :
    readString quote 0 ('\\' :: (inside ++ rest)) =
      (readString quote 0 rest).behind text (inside.length + 1) := by
  rw [readString, if_pos rfl, h]
  dsimp only
  rw [readString_skip, prepend_behind, List.append_nil]

theorem readTemplate_escape (inside : List Char) {text rest : List Char}
    (h : Escape.read (inside ++ rest) = ⟨text, inside.length⟩) :
    readTemplate 0 ('\\' :: (inside ++ rest)) =
      (readTemplate 0 rest).behind text (inside.length + 1) := by
  rw [readTemplate, if_pos rfl, h]
  dsimp only
  rw [readTemplate_skip, prepend_behind, List.append_nil]

/-- A character that neither ends the string nor begins an escape stands for itself. -/
theorem readString_char {c : Char} (hslash : c ≠ '\\') (hquote : c ≠ quote) (hfeed : c ≠ '\n')
    (rest : List Char) :
    readString quote 0 (c :: rest) = (readString quote 0 rest).behind [c] 1 := by
  rw [readString, if_neg hslash, if_neg hquote, if_neg hfeed, prepend, behind, Nat.add_comm]

theorem readTemplate_char {c : Char} (hslash : c ≠ '\\') (hquote : c ≠ '\x60')
    {rest : List Char} (hopens : ¬ (c = '$' ∧ rest.head? = some '\x7b')) :
    readTemplate 0 (c :: rest) = (readTemplate 0 rest).behind [c] 1 := by
  rw [readTemplate, if_neg hslash, if_neg hquote, if_neg (by simpa using hopens), prepend, behind,
    Nat.add_comm]

end Body

end DeclFile
