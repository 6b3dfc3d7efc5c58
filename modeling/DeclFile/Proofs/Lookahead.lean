import DeclFile.Proofs.Scanning

/-! # What a lexeme can see of the text after it

A lexeme is found by looking at the characters from its first one on, some of them beyond its
end. What is seen there only tells that the lexeme is over. So it stays the same if the text
after it is cut off, or goes on as before up to the end of a line.
-/

namespace DeclFile

/-- The second text goes on like the first one up to its own end, or up to a character at which
it breaks off. -/
inductive Echoes (breaks : Char → Prop) : List Char → List Char → Prop
  | ends (after : List Char) : Echoes breaks after []
  | breaks {c : Char} (h : breaks c) (after rest : List Char) : Echoes breaks after (c :: rest)
  | same (c : Char) {after other : List Char} (h : Echoes breaks after other) :
      Echoes breaks (c :: after) (c :: other)

namespace Echoes

variable {breaks : Char → Prop} {after other : List Char}

/-- The next character is the same, if it is none at which the second text breaks off. -/
theorem head?_eq {c : Char} (h : Echoes breaks after other) (hc : ¬ breaks c)
    (hother : other.head? = some c) : after.head? = some c := by
  cases h with
  | ends => cases hother
  | breaks hbreak =>
      cases hother
      exact absurd hbreak hc
  | same => exact hother

theorem exists_eq_cons_cons {c d : Char} {rest : List Char}
    (h : Echoes breaks after (c :: d :: rest)) (hc : ¬ breaks c) (hd : ¬ breaks d) :
    ∃ more, after = c :: d :: more := by
  cases h with
  | breaks hbreak => exact absurd hbreak hc
  | same _ h =>
      cases h with
      | breaks hbreak => exact absurd hbreak hd
      | same _ h => exact ⟨_, rfl⟩

theorem append (h : Echoes breaks after other) (inside : List Char) :
    Echoes breaks (inside ++ after) (inside ++ other) := by
  induction inside with
  | nil => exact h
  | cons c inside ih => exact .same c ih

/-- What does not begin the first text does not begin the second one. -/
theorem any_head?_eq_false {p : Char → Bool} (h : Echoes breaks after other)
    (hbreaks : ∀ c, breaks c → p c = false) (hnone : after.head?.any p = false) :
    other.head?.any p = false := by
  cases h with
  | ends => rfl
  | breaks hc => exact hbreaks _ hc
  | same => exact hnone

/-- A run of characters that ends in time is the same in both texts. -/
theorem takeWhile_eq {p : Char → Bool} (h : Echoes breaks after other)
    (hbreaks : ∀ c, breaks c → p c = false) {inside : List Char}
    (hlength : ((inside ++ after).takeWhile p).length ≤ inside.length) :
    (inside ++ other).takeWhile p = (inside ++ after).takeWhile p := by
  induction inside with
  | nil =>
      have hnil : after.takeWhile p = [] := List.length_eq_zero_iff.mp (Nat.le_zero.mp hlength)
      rw [List.nil_append, List.nil_append, hnil]
      cases h with
      | ends => rfl
      | breaks hc => exact List.takeWhile_cons_of_neg (by simp [hbreaks _ hc])
      | same c _ =>
          have hc : ¬ p c = true := fun hc => by simp [List.takeWhile_cons_of_pos hc] at hnil
          exact List.takeWhile_cons_of_neg hc
  | cons c inside ih =>
      rw [List.cons_append, List.cons_append]
      by_cases hc : p c = true
      · rw [List.cons_append, List.takeWhile_cons_of_pos hc] at hlength
        rw [List.takeWhile_cons_of_pos hc, List.takeWhile_cons_of_pos hc,
          ih (Nat.le_of_succ_le_succ hlength)]
      · rw [List.takeWhile_cons_of_neg hc, List.takeWhile_cons_of_neg hc]

end Echoes

/-! ## Escapes -/

namespace Escape

variable {inside after : List Char}

/-- A run of characters that ends before some place does not depend on the text from there. -/
theorem takeWhile_append_of_lt {p : Char → Bool}
    (h : ((inside ++ after).takeWhile p).length < inside.length) (other : List Char) :
    (inside ++ other).takeWhile p = inside.takeWhile p := by
  rw [List.takeWhile_append] at h ⊢
  split at h
  · simp at h
  · next hne => rw [if_neg hne]

theorem takeWhile_take_append {p : Char → Bool} {n : Nat}
    (h : (((inside ++ after).take n).takeWhile p).length < inside.length) (other : List Char) :
    ((inside ++ other).take n).takeWhile p = (inside.take n).takeWhile p := by
  by_cases hn : n ≤ inside.length
  · rw [List.take_append_of_le_length hn]
  · have htake (rest : List Char) :
        (inside ++ rest).take n = inside ++ rest.take (n - inside.length) := by
      rw [List.take_append, List.take_of_length_le (by omega)]
    rw [htake] at h ⊢
    rw [takeWhile_append_of_lt h, List.take_of_length_le (by omega)]

theorem length_numbered (letter : Char) (digits : List Char) (length : Nat) :
    (numbered letter digits length).length = length := by
  unfold numbered
  split <;> rfl

theorem length_read_pos (c : Char) (rest : List Char) : 0 < (read (c :: rest)).length := by
  unfold read
  split <;> grind [length_numbered]

/-- An escape with neither `x` nor `u` is that letter alone. -/
theorem read_cons_of_ne {c : Char} (hx : c ≠ 'x') (hu : c ≠ 'u') (rest other : List Char) :
    read (c :: rest) = read (c :: other) := by
  unfold read
  split <;> simp_all

theorem read_x (rest : List Char) :
    read ('x' :: rest) = numbered 'x' ((rest.take 2).takeWhile isHexDigit)
      (1 + ((rest.take 2).takeWhile isHexDigit).length) :=
  rfl

theorem read_brace (rest : List Char) :
    read ('u' :: '\x7b' :: rest) = numbered 'u' (rest.takeWhile (· != '\x7d'))
      (min (3 + (rest.takeWhile (· != '\x7d')).length) (2 + rest.length)) :=
  rfl

theorem read_u_of_ne {c : Char} (h : c ≠ '\x7b') (rest : List Char) :
    read ('u' :: c :: rest) = numbered 'u' (((c :: rest).take 4).takeWhile isHexDigit)
      (1 + (((c :: rest).take 4).takeWhile isHexDigit).length) := by
  unfold read
  split <;> grind

/-- An escape that ends before some place does not depend on the text from there. -/
theorem read_append (h : (read (inside ++ after)).length < inside.length) (other : List Char) :
    read (inside ++ other) = read (inside ++ after) := by
  rcases inside with _ | ⟨c, inside⟩
  · cases h
  rw [List.cons_append, List.length_cons] at h
  rw [List.cons_append, List.cons_append]
  by_cases hx : c = 'x'
  · subst hx
    rw [read_x, length_numbered] at h
    have hlength : (((inside ++ after).take 2).takeWhile isHexDigit).length < inside.length := by
      omega
    have hdigits := takeWhile_take_append hlength
    rw [read_x, read_x, hdigits other, hdigits after]
  by_cases hu : c = 'u'
  · subst hu
    rcases inside with _ | ⟨d, inside⟩
    · have hpos := length_read_pos 'u' after
      rw [List.nil_append, List.length_nil] at h
      omega
    rw [List.cons_append, List.length_cons] at h
    rw [List.cons_append, List.cons_append]
    by_cases hd : d = '\x7b'
    · subst hd
      rw [read_brace, length_numbered, List.length_append] at h
      have hlength : ((inside ++ after).takeWhile (· != '\x7d')).length < inside.length := by
        omega
      have hdigits := takeWhile_append_of_lt hlength
      rw [hdigits after] at h
      rw [read_brace, read_brace, hdigits other, hdigits after, List.length_append,
        List.length_append]
      congr 1
      omega
    · rw [read_u_of_ne hd, length_numbered] at h
      have hlength : (((d :: inside ++ after).take 4).takeWhile isHexDigit).length <
          (d :: inside).length := by
        rw [List.cons_append, List.length_cons]
        omega
      have hdigits := takeWhile_take_append hlength
      rw [read_u_of_ne hd, read_u_of_ne hd, ← List.cons_append, ← List.cons_append, hdigits other,
        hdigits after]
  · exact read_cons_of_ne hx hu _ _

end Escape

/-! ## Lengths -/

namespace Body

theorem length_readString_le (quote : Char) (skip : Nat) (chars : List Char) :
    (readString quote skip chars).length ≤ chars.length := by
  fun_induction readString quote skip chars with
  | case1 | case4 | case5 => simp
  | case2 _ _ _ ih | case3 _ _ ih | case6 _ _ _ _ _ ih => exact Nat.succ_le_succ ih

theorem length_readTemplate_le (skip : Nat) (chars : List Char) :
    (readTemplate skip chars).length ≤ chars.length := by
  fun_induction readTemplate skip chars with
  | case1 | case4 => simp
  | case2 _ _ _ ih | case3 _ _ ih | case6 _ _ _ _ _ ih => exact Nat.succ_le_succ ih
  | case5 c rest _ _ hopens =>
      cases rest with
      | nil => simp at hopens
      | cons => simp

end Body

namespace NumberLiteral

theorem digitsLength_le (isDigit : Char → Bool) (chars : List Char) :
    digitsLength isDigit chars ≤ chars.length :=
  (List.takeWhile_sublist _).length_le

theorem fractionLength_le (first : Char) (chars : List Char) :
    fractionLength first chars ≤ chars.length := by
  unfold fractionLength
  split
  · next rest =>
      have hdigits := digitsLength_le Char.isDigit rest
      rw [List.length_cons]
      split <;> omega
  · exact Nat.zero_le _

theorem exponentLength_le (chars : List Char) : exponentLength chars ≤ chars.length := by
  unfold exponentLength
  split
  · next e next rest =>
      have hdigits := digitsLength_le Char.isDigit rest
      have hmore : digitsLength Char.isDigit (next :: rest) ≤ rest.length + 1 :=
        digitsLength_le Char.isDigit (next :: rest)
      rw [List.length_cons, List.length_cons]
      repeat' split
      all_goals omega
  · exact Nat.zero_le _

theorem decimalLength_le (first : Char) (rest : List Char) :
    decimalLength first rest ≤ rest.length := by
  have hwhole := digitsLength_le Char.isDigit rest
  have hfraction := fractionLength_le first (rest.drop (digitsLength Char.isDigit rest))
  have hexponent := exponentLength_le (rest.drop (digitsLength Char.isDigit rest +
    fractionLength first (rest.drop (digitsLength Char.isDigit rest))))
  rw [List.length_drop] at hfraction hexponent
  unfold decimalLength
  dsimp only
  omega

theorem bareLength_le (first : Char) (rest : List Char) : bareLength first rest ≤ rest.length := by
  unfold bareLength
  split
  · next letter more =>
      split
      · next isDigit _ =>
          have hdigits := digitsLength_le isDigit more
          rw [List.length_cons]
          omega
      · exact decimalLength_le _ _
  · exact decimalLength_le _ _

theorem length_le (first : Char) (rest : List Char) : length first rest ≤ rest.length := by
  have hbare := bareLength_le first rest
  unfold length
  cases hbigint : isBigint first rest with
  | false => exact hbare
  | true =>
      have hlt : bareLength first rest < rest.length := by
        by_contra hge
        rw [isBigint, List.drop_eq_nil_of_le (Nat.le_of_not_lt hge)] at hbigint
        cases hbigint
      exact hlt

end NumberLiteral

/-! ## Bodies of literals -/

namespace Body

variable {inside after : List Char} {skip : Nat}

/-- A body that is not broken ends after what is skipped in front of it. -/
theorem lt_length_readString {quote : Char} {chars : List Char}
    (h : (readString quote skip chars).ending ≠ .broken) :
    skip < (readString quote skip chars).length := by
  induction chars generalizing skip with
  | nil => exact absurd rfl h
  | cons c rest ih =>
      cases skip with
      | succ skip => exact Nat.succ_lt_succ (ih h)
      | zero =>
          rw [readString] at h ⊢
          split
          · exact Nat.succ_pos _
          · split
            · exact Nat.one_pos
            · split
              · next hne hquote hfeed =>
                  rw [if_neg hne, if_neg hquote, if_pos hfeed] at h
                  exact absurd rfl h
              · exact Nat.succ_pos _

theorem lt_length_readTemplate {chars : List Char}
    (h : (readTemplate skip chars).ending ≠ .broken) :
    skip < (readTemplate skip chars).length := by
  induction chars generalizing skip with
  | nil => exact absurd rfl h
  | cons c rest ih =>
      cases skip with
      | succ skip => exact Nat.succ_lt_succ (ih h)
      | zero =>
          rw [readTemplate]
          repeat' split
          all_goals exact Nat.succ_pos _

/-- A string that ends in time does not depend on the text after it. -/
theorem readString_append {quote : Char}
    (hending : (readString quote skip (inside ++ after)).ending ≠ .broken)
    (hlength : (readString quote skip (inside ++ after)).length ≤ inside.length)
    (other : List Char) :
    readString quote skip (inside ++ other) = readString quote skip (inside ++ after) := by
  induction inside generalizing skip with
  | nil =>
      exact absurd (Nat.lt_of_lt_of_le (lt_length_readString hending) hlength) (Nat.not_lt_zero _)
  | cons c inside ih =>
      rw [List.cons_append] at hending hlength
      rw [List.cons_append, List.cons_append]
      cases skip with
      | succ skip =>
          rw [readString, readString, ih hending (Nat.le_of_succ_le_succ hlength)]
      | zero =>
          rw [readString] at hending hlength
          rw [readString, readString]
          by_cases hescape : c = '\\'
          · rw [if_pos hescape] at hending hlength
            have hshort := Nat.le_of_succ_le_succ hlength
            have hlt := Nat.lt_of_lt_of_le (lt_length_readString hending) hshort
            rw [if_pos hescape, if_pos hescape, Escape.read_append hlt other]
            dsimp only
            rw [ih hending hshort]
          rw [if_neg hescape] at hending hlength
          rw [if_neg hescape, if_neg hescape]
          by_cases hquote : c = quote
          · rw [if_pos hquote, if_pos hquote]
          rw [if_neg hquote] at hending hlength
          rw [if_neg hquote, if_neg hquote]
          by_cases hfeed : c = '\n'
          · rw [if_pos hfeed, if_pos hfeed]
          rw [if_neg hfeed] at hending hlength
          rw [if_neg hfeed, if_neg hfeed, ih hending (Nat.le_of_succ_le_succ hlength)]

/-- A piece of a template that ends in time does not depend on the text after it. -/
theorem readTemplate_append (hending : (readTemplate skip (inside ++ after)).ending ≠ .broken)
    (hlength : (readTemplate skip (inside ++ after)).length ≤ inside.length)
    (other : List Char) :
    readTemplate skip (inside ++ other) = readTemplate skip (inside ++ after) := by
  induction inside generalizing skip with
  | nil =>
      exact absurd (Nat.lt_of_lt_of_le (lt_length_readTemplate hending) hlength) (Nat.not_lt_zero _)
  | cons c inside ih =>
      rw [List.cons_append] at hending hlength
      rw [List.cons_append, List.cons_append]
      cases skip with
      | succ skip =>
          rw [readTemplate, readTemplate, ih hending (Nat.le_of_succ_le_succ hlength)]
      | zero =>
          rw [readTemplate] at hending hlength
          rw [readTemplate, readTemplate]
          by_cases hescape : c = '\\'
          · rw [if_pos hescape] at hending hlength
            have hshort := Nat.le_of_succ_le_succ hlength
            have hlt := Nat.lt_of_lt_of_le (lt_length_readTemplate hending) hshort
            rw [if_pos hescape, if_pos hescape, Escape.read_append hlt other]
            dsimp only
            rw [ih hending hshort]
          rw [if_neg hescape] at hending hlength
          rw [if_neg hescape, if_neg hescape]
          by_cases hquote : c = '\x60'
          · rw [if_pos hquote, if_pos hquote]
          rw [if_neg hquote] at hending hlength
          rw [if_neg hquote, if_neg hquote]
          -- What opens a substitution stands within the piece.
          cases inside with
          | nil =>
              split at hlength
              · exact absurd hlength (by simp)
              · next hopens =>
                  rw [if_neg hopens] at hending
                  have hlt := lt_length_readTemplate hending
                  simp only [prepend, List.length_cons, List.length_nil] at hlength
                  omega
          | cons d inside =>
              by_cases hopens : (decide (c = '$') && (d :: inside ++ after).head? == some '\x7b') = true
              · have hother : (decide (c = '$') &&
                    (d :: inside ++ other).head? == some '\x7b') = true := hopens
                rw [if_pos hopens, if_pos hother]
              · have hother : ¬(decide (c = '$') &&
                    (d :: inside ++ other).head? == some '\x7b') = true := hopens
                rw [if_neg hopens] at hending hlength
                rw [if_neg hopens, if_neg hother, ih hending (Nat.le_of_succ_le_succ hlength)]

end Body

/-! ## Numbers -/

namespace NumberLiteral

variable {breaks : Char → Prop} {first : Char} {inside after other : List Char}

section

variable (hbreaks : ∀ c, breaks c → c = '\n' ∨ c = '\r') (h : Echoes breaks after other)

include hbreaks in
theorem not_break {c : Char} (hfeed : c ≠ '\n') (hreturn : c ≠ '\r') : ¬ breaks c :=
  fun hc => (hbreaks c hc).elim hfeed hreturn

include h in
theorem digitsLength_eq {isDigit : Char → Bool}
    (hdigit : ∀ c, breaks c → (isDigit c || c == '_') = false)
    (hlength : digitsLength isDigit (inside ++ after) ≤ inside.length) :
    digitsLength isDigit (inside ++ other) = digitsLength isDigit (inside ++ after) := by
  unfold digitsLength at hlength ⊢
  rw [h.takeWhile_eq hdigit hlength]

include hbreaks h in
theorem digitsLength_isDigit_eq
    (hlength : digitsLength Char.isDigit (inside ++ after) ≤ inside.length) :
    digitsLength Char.isDigit (inside ++ other) = digitsLength Char.isDigit (inside ++ after) := by
  apply digitsLength_eq h _ hlength
  intro c hc
  rcases hbreaks c hc with rfl | rfl <;> rfl

theorem fractionLength_of_ne {rest : List Char} (h : rest.head? ≠ some '.') :
    fractionLength first rest = 0 := by
  unfold fractionLength
  split
  · exact absurd rfl h
  · rfl

include hbreaks h in
theorem fractionLength_eq (hlength : fractionLength first (inside ++ after) ≤ inside.length) :
    fractionLength first (inside ++ other) = fractionLength first (inside ++ after) := by
  have hdot : ¬ breaks '.' := not_break hbreaks (by decide) (by decide)
  cases inside with
  | nil =>
      rw [List.nil_append] at hlength
      rw [List.nil_append, List.nil_append, Nat.le_zero.mp hlength]
      by_cases hother : other.head? = some '.'
      · obtain ⟨rest, rfl⟩ := List.head?_eq_some_iff.mp hother
        obtain ⟨more, rfl⟩ := List.head?_eq_some_iff.mp (h.head?_eq hdot hother)
        rw [fractionLength] at hlength ⊢
        by_cases hfirst : first = '.'
        · rw [if_pos hfirst]
        · rw [if_neg hfirst, List.length_nil] at hlength
          omega
      · exact fractionLength_of_ne hother
  | cons c inside =>
      by_cases hc : c = '.'
      · subst hc
        rw [List.cons_append, fractionLength] at hlength
        rw [List.cons_append, List.cons_append, fractionLength, fractionLength]
        split at hlength
        · next hfirst => rw [if_pos hfirst, if_pos hfirst]
        · next hfirst =>
            rw [List.length_cons] at hlength
            rw [if_neg hfirst, if_neg hfirst, digitsLength_isDigit_eq hbreaks h (by omega)]
      · rw [fractionLength_of_ne (by simpa using hc), fractionLength_of_ne (by simpa using hc)]

/-- Whether two characters begin an exponent. -/
def beginsExponent (first second : Char) : Bool :=
  (first == 'e' || first == 'E') && (second == '+' || second == '-' || second.isDigit)

theorem exponentLength_cons_cons (e next : Char) (rest : List Char) :
    exponentLength (e :: next :: rest) =
      if beginsExponent e next then 2 + digitsLength Char.isDigit rest else 0 := by
  have hdigit : next.isDigit = true →
      digitsLength Char.isDigit (next :: rest) = 1 + digitsLength Char.isDigit rest := by
    intro hnext
    unfold digitsLength
    rw [List.takeWhile_cons_of_pos (by simp [hnext]), List.length_cons, Nat.add_comm]
  unfold exponentLength beginsExponent
  grind

/-- A text that begins with an exponent has the two characters that show it. -/
theorem exists_of_exponentLength_ne_zero {chars : List Char} (h : exponentLength chars ≠ 0) :
    ∃ e next rest, chars = e :: next :: rest ∧ beginsExponent e next = true ∧
      2 ≤ exponentLength chars := by
  match chars with
  | [] | [_] => exact absurd rfl h
  | e :: next :: rest =>
      rw [exponentLength_cons_cons] at h ⊢
      split at h
      · next hbegins =>
          rw [if_pos hbegins]
          exact ⟨e, next, rest, rfl, hbegins, Nat.le_add_right _ _⟩
      · exact absurd rfl h

include hbreaks in
theorem not_break_of_beginsExponent {e next : Char} (h : beginsExponent e next = true) :
    ¬ breaks e ∧ ¬ breaks next := by
  constructor
  · apply not_break hbreaks <;> rintro rfl <;> simp [beginsExponent] at h
  · apply not_break hbreaks <;> rintro rfl <;> simp [beginsExponent] at h

include hbreaks h in
theorem exponentLength_eq (hlength : exponentLength (inside ++ after) ≤ inside.length) :
    exponentLength (inside ++ other) = exponentLength (inside ++ after) := by
  by_cases hlong : 2 ≤ inside.length
  · match inside with
    | e :: next :: inside =>
        simp only [List.cons_append, exponentLength_cons_cons, List.length_cons] at hlength ⊢
        by_cases hbegins : beginsExponent e next = true
        · rw [if_pos hbegins] at hlength
          rw [if_pos hbegins, if_pos hbegins, digitsLength_isDigit_eq hbreaks h (by omega)]
        · rw [if_neg hbegins, if_neg hbegins]
  · -- An exponent has two characters at least, which neither text has.
    have hnone : exponentLength (inside ++ after) = 0 := by
      by_contra hsome
      obtain ⟨_, _, _, _, _, hle⟩ := exists_of_exponentLength_ne_zero hsome
      omega
    rw [hnone]
    by_contra hsome
    obtain ⟨e, next, rest, hother, hbegins, -⟩ := exists_of_exponentLength_ne_zero hsome
    obtain ⟨he, hnext⟩ := not_break_of_beginsExponent hbreaks hbegins
    obtain ⟨more, hafter⟩ := (hother ▸ h.append inside).exists_eq_cons_cons he hnext
    rw [hafter, exponentLength_cons_cons, if_pos hbegins] at hnone
    omega

include hbreaks h in
theorem decimalLength_eq (hlength : decimalLength first (inside ++ after) ≤ inside.length) :
    decimalLength first (inside ++ other) = decimalLength first (inside ++ after) := by
  have hdrop {n : Nat} (hn : n ≤ inside.length) (rest : List Char) :
      (inside ++ rest).drop n = inside.drop n ++ rest := List.drop_append_of_le_length hn
  unfold decimalLength at hlength ⊢
  dsimp only at hlength ⊢
  rw [digitsLength_isDigit_eq hbreaks h (by omega)]
  generalize digitsLength Char.isDigit (inside ++ after) = whole at hlength ⊢
  have hfraction : fractionLength first ((inside ++ other).drop whole) =
      fractionLength first ((inside ++ after).drop whole) := by
    rw [hdrop (by omega)] at hlength
    rw [hdrop (by omega), hdrop (by omega)]
    exact fractionLength_eq hbreaks h (by rw [List.length_drop]; omega)
  rw [hfraction]
  generalize fractionLength first ((inside ++ after).drop whole) = fraction at hlength ⊢
  rw [hdrop (by omega)] at hlength
  rw [hdrop (by omega), hdrop (by omega),
    exponentLength_eq hbreaks h (by rw [List.length_drop]; omega)]

theorem bareLength_of_radix {letter : Char} {isDigit : Char → Bool}
    (h : radixDigit? letter = some isDigit) (rest : List Char) :
    bareLength '0' (letter :: rest) = 1 + digitsLength isDigit rest := by
  simp only [bareLength, h]

theorem bareLength_of_decimal {rest : List Char}
    (h : first ≠ '0' ∨ ∀ letter ∈ rest.head?, radixDigit? letter = none) :
    bareLength first rest = decimalLength first rest := by
  unfold bareLength
  split
  · next letter more =>
      have hnone : radixDigit? letter = none := by simpa using h
      simp only [hnone]
  · rfl

theorem radixDigit?_of_break {c : Char} (hc : c = '\n' ∨ c = '\r') : radixDigit? c = none := by
  rcases hc with rfl | rfl <;> rfl

theorem not_isDigit_of_radix {letter c : Char} {isDigit : Char → Bool}
    (h : radixDigit? letter = some isDigit) (hc : c = '\n' ∨ c = '\r') :
    (isDigit c || c == '_') = false := by
  unfold radixDigit? at h
  repeat' split at h
  all_goals
    cases h
    try rcases hc with rfl | rfl <;> rfl

include hbreaks h in
theorem bareLength_eq (hlength : bareLength first (inside ++ after) ≤ inside.length) :
    bareLength first (inside ++ other) = bareLength first (inside ++ after) := by
  by_cases hradix : first = '0' ∧ ∃ letter isDigit, (inside ++ after).head? = some letter ∧
      radixDigit? letter = some isDigit
  · obtain ⟨rfl, letter, isDigit, hletter, hdigit⟩ := hradix
    cases inside with
    | nil =>
        obtain ⟨rest, rfl⟩ := List.head?_eq_some_iff.mp hletter
        rw [List.nil_append, bareLength_of_radix hdigit, List.length_nil] at hlength
        omega
    | cons c inside =>
        cases hletter
        rw [List.cons_append, bareLength_of_radix hdigit, List.length_cons] at hlength
        rw [List.cons_append, List.cons_append, bareLength_of_radix hdigit,
          bareLength_of_radix hdigit, digitsLength_eq h _ (by omega)]
        exact fun c hc => not_isDigit_of_radix hdigit (hbreaks c hc)
  · have hafter : first ≠ '0' ∨ ∀ letter ∈ (inside ++ after).head?, radixDigit? letter = none := by
      by_contra hnot
      push Not at hnot
      obtain ⟨hfirst, letter, hletter, hsome⟩ := hnot
      obtain ⟨isDigit, hdigit⟩ := Option.ne_none_iff_exists'.mp hsome
      exact hradix ⟨hfirst, letter, isDigit, hletter, hdigit⟩
    have hother : first ≠ '0' ∨ ∀ letter ∈ (inside ++ other).head?, radixDigit? letter = none := by
      refine hafter.imp_right fun hafter letter hletter => ?_
      by_cases hbreak : breaks letter
      · exact radixDigit?_of_break (hbreaks letter hbreak)
      · exact hafter letter ((h.append inside).head?_eq hbreak hletter)
    rw [bareLength_of_decimal hafter] at hlength
    rw [bareLength_of_decimal hafter, bareLength_of_decimal hother,
      decimalLength_eq hbreaks h hlength]

include hbreaks h in
theorem isBigint_eq (hlength : length first (inside ++ after) ≤ inside.length) :
    isBigint first (inside ++ other) = isBigint first (inside ++ after) := by
  unfold length at hlength
  have hbare := bareLength_eq hbreaks h (show bareLength first (inside ++ after) ≤ _ by omega)
  unfold isBigint at hlength ⊢
  rw [hbare]
  generalize bareLength first (inside ++ after) = bare at hlength ⊢
  rw [List.drop_append_of_le_length (by omega)] at hlength
  rw [List.drop_append_of_le_length (by omega), List.drop_append_of_le_length (by omega)]
  cases hrest : inside.drop bare with
  | cons c rest => rfl
  | nil =>
      have hfull : inside.length ≤ bare := List.drop_eq_nil_iff.mp hrest
      have hafter : (after.head? == some 'n') = false := by
        rw [hrest, List.nil_append] at hlength
        cases hn : after.head? == some 'n' with
        | false => rfl
        | true =>
            rw [hn, Bool.toNat_true] at hlength
            omega
      rw [List.nil_append, List.nil_append, hafter]
      by_contra hother
      rw [Bool.not_eq_false, beq_iff_eq] at hother
      rw [h.head?_eq (not_break hbreaks (by decide) (by decide)) hother] at hafter
      cases hafter

include hbreaks h in
theorem length_eq (hlength : length first (inside ++ after) ≤ inside.length) :
    length first (inside ++ other) = length first (inside ++ after) := by
  have hbare : bareLength first (inside ++ after) ≤ inside.length :=
    Nat.le_trans (Nat.le_add_right _ _) hlength
  rw [length, length, bareLength_eq hbreaks h hbare, isBigint_eq hbreaks h hlength]

end

end NumberLiteral

/-! ## Lexemes -/

namespace Lexeme

variable {breaks : Char → Prop} {c : Char} {inside after other : List Char} {depths : List Nat}

theorem blockLength_cons (h : ¬ (c = '*' ∧ inside.head? = some '/')) :
    blockLength (c :: inside) = ((blockLength inside).1 + 1, (blockLength inside).2) := by
  rw [blockLength]
  rintro more rfl rfl
  exact h ⟨rfl, rfl⟩

theorem two_le_blockLength {chars : List Char} (h : (blockLength chars).2 = true) :
    2 ≤ (blockLength chars).1 := by
  fun_induction blockLength chars with
  | case1 => cases h
  | case2 => exact Nat.le_refl 2
  | case3 _ _ _ length closed heq ih =>
      rw [heq] at ih
      exact Nat.le_succ_of_le (ih h)

/-- A comment that is closed in time does not depend on the text after it. -/
theorem blockLength_append (hclosed : (blockLength (inside ++ after)).2 = true)
    (hlength : (blockLength (inside ++ after)).1 ≤ inside.length) (other : List Char) :
    blockLength (inside ++ other) = blockLength (inside ++ after) := by
  induction inside with
  | nil =>
      have hle := two_le_blockLength hclosed
      rw [List.length_nil] at hlength
      omega
  | cons c inside ih =>
      by_cases hends : c = '*' ∧ (inside ++ after).head? = some '/'
      · obtain ⟨rfl, hslash⟩ := hends
        cases inside with
        | nil =>
            obtain ⟨more, rfl⟩ := List.head?_eq_some_iff.mp hslash
            exact absurd hlength (by simp [blockLength])
        | cons d inside =>
            cases hslash
            rfl
      · rw [List.cons_append, blockLength_cons hends] at hclosed hlength
        have hshort := Nat.le_of_succ_le_succ hlength
        -- The comment goes on within the text that is the same.
        have hother : ¬ (c = '*' ∧ (inside ++ other).head? = some '/') := by
          cases inside with
          | nil =>
              have hle := two_le_blockLength hclosed
              rw [List.length_nil] at hshort
              omega
          | cons d inside => exact hends
        rw [List.cons_append, List.cons_append, blockLength_cons hends, blockLength_cons hother,
          ih hclosed hshort]

theorem closed_of_fault (h : (blockComment depths inside).fault = none) :
    (blockLength inside).2 = true := by
  unfold blockComment at h
  dsimp only at h
  by_contra hopen
  rw [if_neg hopen] at h
  cases h

theorem blockComment_append
    (hfault : (blockComment depths (inside ++ after)).fault = none)
    (hlength : (blockComment depths (inside ++ after)).length ≤ inside.length + 1)
    (other : List Char) :
    blockComment depths (inside ++ other) = blockComment depths (inside ++ after) := by
  have hclosed := closed_of_fault hfault
  unfold blockComment at hlength ⊢
  dsimp only at hlength ⊢
  rw [blockLength_append hclosed (by omega)]

theorem length_blockComment_pos (rest : List Char) : 0 < (blockComment depths rest).length := by
  unfold blockComment
  dsimp only
  omega

theorem length_lineComment (rest : List Char) :
    (lineComment depths rest).length = 1 + (rest.takeWhile (· != '\n')).length := by
  unfold lineComment
  dsimp only
  split <;> rfl

theorem kind_lineComment (rest : List Char) : (lineComment depths rest).kind = some .lineComment ∨
    (lineComment depths rest).kind = some .directive := by
  unfold lineComment
  dsimp only
  split
  · exact .inr rfl
  · exact .inl rfl

theorem length_template (whole part : Kind) (body : Body) :
    (template depths whole part body).length = body.length := by
  unfold template
  split <;> rfl

theorem fault_template {whole part : Kind} {body : Body}
    (h : (template depths whole part body).fault = none) : body.ending ≠ .broken := by
  intro hbroken
  unfold template at h
  rw [hbroken] at h
  cases h

theorem fault_string {body : Body} (h : (string depths body).fault = none) :
    body.ending ≠ .broken := by
  intro hbroken
  unfold string at h
  rw [if_pos hbroken] at h
  cases h

/-- A piece of a template that ends in time does not depend on the text after it. -/
theorem template_append {whole part : Kind}
    (hfault : (template depths whole part (Body.readTemplate 0 (inside ++ after))).fault = none)
    (hlength : (template depths whole part (Body.readTemplate 0 (inside ++ after))).length ≤
      inside.length) (other : List Char) :
    Body.readTemplate 0 (inside ++ other) = Body.readTemplate 0 (inside ++ after) :=
  Body.readTemplate_append (fault_template hfault) (length_template whole part _ ▸ hlength) other

theorem dot_of_ne {rest : List Char} (h : ∀ more, rest ≠ '.' :: '.' :: more) :
    dot depths rest = if rest.head?.any Char.isDigit then number depths '.' rest
      else plain depths (.mark .dot) 0 := by
  unfold dot
  split
  · exact absurd rfl (h _)
  · rfl
  · rfl

theorem length_number (first : Char) (rest : List Char) :
    (number depths first rest).length = NumberLiteral.length first rest := by
  unfold number
  dsimp only
  split <;> rfl

/-- A number that begins with a point has a digit after it. -/
theorem length_number_pos {rest : List Char} (h : rest.head?.any Char.isDigit = true) :
    0 < (number depths '.' rest).length := by
  cases rest with
  | nil => cases h
  | cons digit rest =>
      have hdigits : 0 < NumberLiteral.digitsLength Char.isDigit (digit :: rest) := by
        unfold NumberLiteral.digitsLength
        rw [List.takeWhile_cons_of_pos (by rw [show digit.isDigit = true from h, Bool.true_or])]
        exact Nat.succ_pos _
      rw [length_number, NumberLiteral.length,
        NumberLiteral.bareLength_of_decimal (.inl (by decide)), NumberLiteral.decimalLength]
      omega

theorem isIdentifierContinue_of_break (h : c = '\n' ∨ c = '\r') :
    isIdentifierContinue c = false := by
  rcases h with rfl | rfl <;> rfl

theorem isIdentifierContinue_of_start (h : isIdentifierStart c = true) :
    isIdentifierContinue c = true := by
  unfold isIdentifierStart at h
  unfold isIdentifierContinue Unicode.isAlphanumeric
  grind

theorem length_takeWhile_pos {rest : List Char} (h : rest.head?.any isIdentifierStart = true) :
    0 < (rest.takeWhile isIdentifierContinue).length := by
  cases rest with
  | nil => cases h
  | cons c rest =>
      rw [List.takeWhile_cons_of_pos (isIdentifierContinue_of_start h)]
      exact Nat.succ_pos _

section

variable (hbreaks : ∀ c, breaks c → c = '\n' ∨ c = '\r') (h : Echoes breaks after other)

include hbreaks h in
theorem number_eq (hlength : (number depths c (inside ++ after)).length ≤ inside.length) :
    number depths c (inside ++ other) = number depths c (inside ++ after) := by
  rw [length_number] at hlength
  unfold number
  rw [NumberLiteral.isBigint_eq hbreaks h hlength, NumberLiteral.length_eq hbreaks h hlength]
  dsimp only
  rw [List.take_append_of_le_length (by omega), List.take_append_of_le_length (by omega)]

include hbreaks h in
theorem dot_append (hlength : (dot depths (inside ++ after)).length ≤ inside.length) :
    dot depths (inside ++ other) = dot depths (inside ++ after) := by
  have hdot : ¬ breaks '.' := NumberLiteral.not_break hbreaks (by decide) (by decide)
  by_cases hpoints : ∃ more, inside ++ after = '.' :: '.' :: more
  · obtain ⟨more, hpoints⟩ := hpoints
    rw [hpoints] at hlength
    match inside with
    | _ :: _ :: inside =>
        cases hpoints
        rfl
    | [_] | [] => exact absurd hlength (by simp [dot, plain])
  have hapart : ∀ more, inside ++ other ≠ '.' :: '.' :: more := by
    intro more hmore
    exact hpoints ((hmore ▸ h.append inside).exists_eq_cons_cons hdot hdot)
  rw [dot_of_ne (not_exists.mp hpoints)] at hlength
  rw [dot_of_ne (not_exists.mp hpoints), dot_of_ne hapart]
  cases inside with
  | cons d inside =>
      rw [List.cons_append, List.head?_cons] at hlength
      rw [List.cons_append, List.cons_append, List.head?_cons, List.head?_cons]
      split
      · next hdigit =>
          rw [if_pos hdigit] at hlength
          have hnumber : number depths '.' (d :: inside ++ other) =
              number depths '.' (d :: inside ++ after) := number_eq hbreaks h hlength
          exact hnumber
      · rfl
  | nil =>
      rw [List.nil_append] at hlength ⊢
      rw [List.nil_append]
      have hnone : after.head?.any Char.isDigit = false := by
        apply Bool.eq_false_iff.mpr
        intro hdigit
        have hpos : 0 < (number depths '.' after).length := length_number_pos hdigit
        rw [if_pos hdigit, List.length_nil] at hlength
        omega
      have hother : other.head?.any Char.isDigit = false := by
        apply h.any_head?_eq_false _ hnone
        intro c hc
        rcases hbreaks c hc with rfl | rfl <;> rfl
      rw [hnone, hother]
      rfl

include hbreaks h in
theorem word_eq (hlength : (word depths c (inside ++ after)).length ≤ inside.length) :
    word depths c (inside ++ other) = word depths c (inside ++ after) := by
  unfold word at hlength ⊢
  dsimp only at hlength ⊢
  rw [h.takeWhile_eq (fun c hc => isIdentifierContinue_of_break (hbreaks c hc)) hlength]

include h in
/-- A comment or directive goes on up to the end of its line. -/
theorem lineComment_eq (hfeed : ∀ c, breaks c → c = '\n')
    (hlength : (lineComment depths (inside ++ after)).length ≤ inside.length + 1) :
    lineComment depths (inside ++ other) = lineComment depths (inside ++ after) := by
  rw [length_lineComment] at hlength
  have hline : ((inside ++ after).takeWhile (· != '\n')).length ≤ inside.length := by omega
  unfold lineComment
  rw [h.takeWhile_eq (fun c hc => by simp [hfeed c hc]) hline]

/-- A lexeme without a fault that ends in time is the same in front of both texts. -/
structure IsSteady (breaks : Char → Prop) (inside after other : List Char)
    (read : List Char → Lexeme) : Prop where
  eq : (read (inside ++ after)).fault = none →
    (read (inside ++ after)).length ≤ inside.length →
    ((read (inside ++ after)).kind = some .lineComment ∨
      (read (inside ++ after)).kind = some .directive → ∀ c, breaks c → c = '\n') →
    read (inside ++ other) = read (inside ++ after)

theorem isSteady_const (lexeme : Lexeme) : IsSteady breaks inside after other fun _ => lexeme :=
  ⟨fun _ _ _ => rfl⟩

include hbreaks h in
theorem isSteady_equals : IsSteady breaks inside after other fun rest =>
    if rest.head? == some '>' then plain depths (.mark .arrow) 1
    else plain depths (.mark .equals) 0 := by
  refine ⟨fun _ hlength _ => ?_⟩
  have hangle : ¬ breaks '>' := NumberLiteral.not_break hbreaks (by decide) (by decide)
  cases inside with
  | cons => rfl
  | nil =>
      simp only [List.nil_append, beq_iff_eq] at hlength ⊢
      by_cases harrow : after.head? = some '>'
      · rw [if_pos harrow] at hlength
        cases hlength
      · rw [if_neg harrow, if_neg fun hother => harrow (h.head?_eq hangle hother)]

include hbreaks h in
theorem isSteady_slash : IsSteady breaks inside after other fun rest =>
    match rest with
    | '/' :: more => lineComment depths more
    | '*' :: more => blockComment depths more
    | _ => plain depths (.mark .slash) 0 := by
  refine ⟨fun hfault hlength hline => ?_⟩
  have hslash : ¬ breaks '/' := NumberLiteral.not_break hbreaks (by decide) (by decide)
  have hstar : ¬ breaks '*' := NumberLiteral.not_break hbreaks (by decide) (by decide)
  cases inside with
  | cons d inside =>
      simp only [List.cons_append] at hfault hlength hline ⊢
      split at hlength
      · next more hmore =>
          cases hmore
          exact lineComment_eq h (hline (kind_lineComment _)) hlength
      · next more hmore =>
          cases hmore
          exact blockComment_append hfault hlength other
      · next hline hblock =>
          split
          · next heq =>
              cases heq
              exact absurd rfl (hline _)
          · next heq =>
              cases heq
              exact absurd rfl (hblock _)
          · rfl
  | nil =>
      simp only [List.nil_append] at hlength ⊢
      split at hlength
      · rw [length_lineComment, List.length_nil] at hlength
        omega
      · exact absurd hlength (Nat.not_le_of_lt (length_blockComment_pos _))
      · next hline hblock =>
          split
          · obtain ⟨more, rfl⟩ := List.head?_eq_some_iff.mp (h.head?_eq hslash rfl)
            exact absurd rfl (hline _)
          · obtain ⟨more, rfl⟩ := List.head?_eq_some_iff.mp (h.head?_eq hstar rfl)
            exact absurd rfl (hblock _)
          · rfl

include hbreaks h in
theorem isSteady_hash : IsSteady breaks inside after other fun rest =>
    if rest.head?.any isIdentifierStart then
      plain depths .privateName (rest.takeWhile isIdentifierContinue).length
    else unexpected depths '#' := by
  refine ⟨fun hfault hlength _ => ?_⟩
  by_cases hstart : (inside ++ after).head?.any isIdentifierStart = true
  · rw [if_pos hstart] at hlength
    have hother : (inside ++ other).head?.any isIdentifierStart = true := by
      cases inside with
      | cons => exact hstart
      | nil =>
          have hpos := length_takeWhile_pos hstart
          exact absurd hlength (Nat.not_le_of_lt hpos)
    rw [if_pos hstart, if_pos hother, h.takeWhile_eq _ hlength]
    exact fun c hc => isIdentifierContinue_of_break (hbreaks c hc)
  · rw [if_neg hstart] at hfault
    cases hfault

theorem isSteady_closeBrace : IsSteady breaks inside after other (closeBrace · depths) := by
  unfold closeBrace
  split
  · exact ⟨fun hfault hlength _ => by rw [template_append hfault hlength]⟩
  · exact isSteady_const _
  · exact isSteady_const _

theorem isSteady_string (quote : Char) : IsSteady breaks inside after other fun rest =>
    string depths (Body.readString quote 0 rest) :=
  ⟨fun hfault hlength _ => by rw [Body.readString_append (fault_string hfault) hlength other]⟩

theorem isSteady_template : IsSteady breaks inside after other fun rest =>
    template depths .templateWhole .templateHead (Body.readTemplate 0 rest) :=
  ⟨fun hfault hlength _ => by rw [template_append hfault hlength other]⟩

include hbreaks h in
/-- Any lexeme without a fault that ends in time is the same in front of both texts. -/
theorem isSteady_read : IsSteady breaks inside after other (read depths c) := by
  unfold read
  split
  · exact isSteady_const _
  split
  · exact isSteady_const _
  · exact isSteady_closeBrace
  · exact ⟨fun _ hlength _ => dot_append hbreaks h hlength⟩
  · exact isSteady_equals hbreaks h
  · exact isSteady_slash hbreaks h
  · exact isSteady_string '"'
  · exact isSteady_string '\x27'
  · exact isSteady_template
  · exact isSteady_hash hbreaks h
  · split
    · exact ⟨fun _ hlength _ => number_eq hbreaks h hlength⟩
    split
    · exact ⟨fun _ hlength _ => word_eq hbreaks h hlength⟩
    · exact isSteady_const _

end

/-! ## No lexeme goes beyond the text -/

theorem length_blockLength_le (rest : List Char) : (blockLength rest).1 ≤ rest.length := by
  fun_induction blockLength rest with
  | case1 => simp
  | case2 => simp
  | case3 _ _ _ length closed heq ih =>
      rw [heq] at ih
      exact Nat.succ_le_succ ih

theorem length_dot_le (rest : List Char) : (dot depths rest).length ≤ rest.length := by
  unfold dot
  split
  · simp [plain]
  · split
    · rw [length_number]
      exact NumberLiteral.length_le _ _
    · exact Nat.zero_le _
  · exact Nat.zero_le _

theorem length_slash_le (rest : List Char) : Lexeme.length (match rest with
    | '/' :: more => lineComment depths more
    | '*' :: more => blockComment depths more
    | _ => plain depths (.mark .slash) 0) ≤ rest.length := by
  split
  · next more =>
      have hline := (List.takeWhile_sublist (l := more) (· != '\n')).length_le
      rw [length_lineComment, List.length_cons]
      omega
  · next more =>
      have hblock := length_blockLength_le more
      rw [List.length_cons]
      exact Nat.add_comm _ 1 ▸ Nat.add_le_add_left hblock 1
  · exact Nat.zero_le _

theorem length_read_le (depths : List Nat) (c : Char) (rest : List Char) :
    (read depths c rest).length ≤ rest.length := by
  unfold read
  split
  · exact Nat.zero_le _
  split
  · unfold openBrace
    split <;> exact Nat.zero_le _
  · unfold closeBrace
    split
    · rw [length_template]
      exact Body.length_readTemplate_le _ _
    all_goals exact Nat.zero_le _
  · exact length_dot_le _
  · split
    · next harrow =>
        obtain ⟨more, rfl⟩ := List.head?_eq_some_iff.mp (beq_iff_eq.mp harrow)
        simp [plain]
    · exact Nat.zero_le _
  · exact length_slash_le _
  · exact Body.length_readString_le _ _ _
  · exact Body.length_readString_le _ _ _
  · rw [length_template]
    exact Body.length_readTemplate_le _ _
  · split
    · exact (List.takeWhile_sublist _).length_le
    · exact Nat.zero_le _
  · split
    · rw [length_number]
      exact NumberLiteral.length_le _ _
    split
    · exact (List.takeWhile_sublist _).length_le
    · exact Nat.zero_le _

end Lexeme

end DeclFile
