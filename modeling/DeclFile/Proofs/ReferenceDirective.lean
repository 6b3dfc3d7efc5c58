import DeclFile.Proofs.StringRoundTrip
import DeclFile.Proofs.TemplateLexing
import DeclFile.Reference

/-! # Attributes are read by their whole names

A reference directive is a list of attributes, and one is looked up by searching the text for its
name. The search knows neither names nor values, so it also comes by words inside of them. Such a
word is passed over unless it stands where a name may begin, behind white space or behind the same
word, with an equals sign after it. Where no name and no value has a word standing like that, the
first attribute with the name decides.
-/

namespace DeclFile

open Unicode

namespace Reference

/-! ## Directives -/

/-- What the name of an attribute consists of. -/
def isNameChar (c : Char) : Bool := c == '-' || isAlphabetic c

/-- Behind `before` a name may begin, for one who looks for the word. -/
def StandsFree (word before : List Char) : Prop :=
  before.getLast?.any isWhiteSpace = true ∨ word <:+ before

/-- An attribute as it is written, with the white space in front of it and around its equals
sign. -/
structure Attribute where
  space : List Char
  name : List Char
  before : List Char
  after : List Char
  quote : Quote
  value : List Char
  space_ne : space ≠ []
  space_blank : ∀ c ∈ space, isWhiteSpace c = true
  name_chars : ∀ c ∈ name, isNameChar c = true
  before_blank : ∀ c ∈ before, isWhiteSpace c = true
  after_blank : ∀ c ∈ after, isWhiteSpace c = true
  value_chars : quote.char ∉ value

namespace Attribute

def write (entry : Attribute) : List Char :=
  entry.space ++ (entry.name ++ (entry.before ++ '=' :: (entry.after ++
    entry.quote.char :: (entry.value ++ [entry.quote.char]))))

/-- In the attribute there is the word where a name may begin, in front of an equals sign, without
being the whole name. -/
inductive Mimics (entry : Attribute) (word : List Char) : Prop
  /-- The name ends with the word, and in front of that is the word once more. -/
  | name (h : word ++ word <:+ entry.name)
  /-- The value has the word behind white space or behind the word itself. -/
  | value {before behind : List Char} (h : entry.value = before ++ (word ++ behind))
      (hfree : StandsFree word before)
      (hsign : (behind.dropWhile isWhiteSpace).head? = some '=')

instance (word before : List Char) : Decidable (StandsFree word before) :=
  inferInstanceAs (Decidable (_ ∨ _))

/-- Only so many places in the value are to be tried. -/
theorem mimics_iff {entry : Attribute} {word : List Char} :
    entry.Mimics word ↔ word ++ word <:+ entry.name ∨
      ∃ place < entry.value.length + 1, StandsFree word (entry.value.take place) ∧
        word <+: entry.value.drop place ∧
        (((entry.value.drop place).drop word.length).dropWhile isWhiteSpace).head? = some '=' := by
  constructor
  · rintro (hname | @⟨before, behind, hvalue, hfree, hsign⟩)
    · exact .inl hname
    · refine .inr ⟨before.length, by simp only [hvalue, List.length_append]; omega, ?_⟩
      rw [hvalue, List.take_left, List.drop_left, List.drop_left]
      exact ⟨hfree, List.prefix_append _ _, hsign⟩
  · rintro (hname | ⟨place, -, hfree, ⟨behind, hbehind⟩, hsign⟩)
    · exact .name hname
    · rw [← hbehind, List.drop_left] at hsign
      exact .value (by rw [hbehind, List.take_append_drop]) hfree hsign

instance (entry : Attribute) (word : List Char) : Decidable (entry.Mimics word) :=
  decidable_of_iff' _ mimics_iff

end Attribute

/-- A reference directive as it is written. -/
structure Directive where
  attributes : List Attribute
  closing : List Char
  closing_blank : ∀ c ∈ closing, isWhiteSpace c = true

namespace Directive

/-- What is behind the opening. -/
def body (directive : Directive) : List Char :=
  directive.attributes.flatMap Attribute.write ++ (directive.closing ++ ['/', '>'])

def text (directive : Directive) : String :=
  String.ofList (opening ++ directive.body)

/-- The first attribute with exactly this name. -/
def attribute? (directive : Directive) (word : List Char) : Option Attribute :=
  directive.attributes.find? (·.name == word)

/-- What the directive asks for by the whole names of its attributes. -/
def asked? (directive : Directive) : Option (ReferenceKind × String) :=
  Reference.attributes.findSome? fun (word, kind) =>
    (directive.attribute? word.toList).map fun found => (kind, String.ofList found.value)

/-- Nothing in front of the first attribute with this name is mistaken for it. -/
def Distinguishes (directive : Directive) (word : List Char) : Prop :=
  ∀ entry ∈ directive.attributes.takeWhile (·.name != word), ¬entry.Mimics word

instance (directive : Directive) (word : List Char) : Decidable (directive.Distinguishes word) :=
  inferInstanceAs (Decidable (∀ entry ∈ _, _))

/-- Each name is distinguished, up to the first one that an attribute has. -/
def IsPlainFor (directive : Directive) : List (String × ReferenceKind) → Prop
  | [] => True
  | (word, _) :: more => directive.Distinguishes word.toList ∧
      (directive.attribute? word.toList = none → directive.IsPlainFor more)

instance decidableIsPlainFor (directive : Directive) :
    (names : List (String × ReferenceKind)) → Decidable (directive.IsPlainFor names)
  | [] => .isTrue trivial
  | (word, _) :: more =>
      have := directive.decidableIsPlainFor more
      inferInstanceAs (Decidable (directive.Distinguishes word.toList ∧
        (directive.attribute? word.toList = none → directive.IsPlainFor more)))

end Directive

/-! ## Searching -/

section

variable {word chars part blank rest : List Char} {c : Char} {skip : Nat} {free : Bool}

theorem valueFrom?_skip (word chars : List Char) (skip : Nat) (free : Bool) :
    valueFrom? word skip free chars = valueFrom? word 0 free (chars.drop skip) := by
  induction chars generalizing skip with
  | nil => cases skip <;> rfl
  | cons c rest ih =>
      cases skip with
      | zero => rfl
      | succ skip => exact ih skip

/-- A character at which the word does not begin is passed. -/
theorem valueFrom?_other (h : ¬word <+: c :: rest) :
    valueFrom? word 0 free (c :: rest) = valueFrom? word 0 (isWhiteSpace c) rest := by
  rw [valueFrom?, if_neg (by simpa using h)]

/-- Where the word begins, an equals sign behind it and a place for a name in front of it make it
the name; else the search goes on behind it. -/
theorem valueFrom?_word (hword : word ≠ []) (free : Bool) (rest : List Char) :
    valueFrom? word 0 free (word ++ rest) =
      if free = true ∧ (rest.dropWhile isWhiteSpace).head? = some '=' then
        quoted? ((rest.dropWhile isWhiteSpace).tail.dropWhile isWhiteSpace)
      else valueFrom? word 0 true rest := by
  obtain ⟨c, more, rfl⟩ := List.exists_cons_of_ne_nil hword
  have hdrop : (c :: (more ++ rest)).drop (c :: more).length = rest := by simp
  have hbehind : valueFrom? (c :: more) ((c :: more).length - 1) true (more ++ rest) =
      valueFrom? (c :: more) 0 true rest := by
    rw [valueFrom?_skip, List.length_cons, Nat.add_sub_cancel, List.drop_left]
  have hprefix : (c :: more).isPrefixOf (c :: (more ++ rest)) = true := by simp
  rw [List.cons_append, valueFrom?, if_pos hprefix, hdrop, hbehind]
  split
  next value hvalue => cases free <;> simp [hvalue]
  next hother =>
    rw [if_neg]
    rintro ⟨-, hhead⟩
    obtain ⟨value, hvalue⟩ := List.head?_eq_some_iff.mp hhead
    exact hother value hvalue

theorem isNameChar_of_isWhiteSpace (h : isWhiteSpace c = true) : isNameChar c = false := by
  have hstart := isIdentifierStart_of_isWhiteSpace h
  simp only [isIdentifierStart, Bool.or_eq_false_iff] at hstart
  rw [isNameChar, hstart.2, Bool.or_false, beq_eq_false_iff_ne]
  rintro rfl
  cases h

/-- No name begins at a character that no name has. -/
theorem not_prefix_of_not_isNameChar (hword : word ≠ []) (hchars : ∀ c ∈ word, isNameChar c = true)
    (h : isNameChar c = false) : ¬word <+: c :: rest := by
  rintro ⟨behind, hbehind⟩
  obtain ⟨first, more, rfl⟩ := List.exists_cons_of_ne_nil hword
  have hfirst : first = c := (List.cons.inj hbehind).1
  rw [← hfirst, hchars first List.mem_cons_self] at h
  cases h

/-- A name does not go on behind what no name has. -/
theorem prefix_of_prefix_append (hchars : ∀ c ∈ word, isNameChar c = true)
    (hrest : ∀ c ∈ rest.head?, isNameChar c = false) (h : word <+: part ++ rest) :
    word <+: part := by
  obtain hshort | ⟨more, rfl⟩ := List.prefix_or_prefix_of_prefix h (List.prefix_append part rest)
  · exact hshort
  · cases more with
    | nil => exact (List.append_nil part).symm ▸ List.prefix_rfl
    | cons c more =>
        obtain ⟨behind, rfl⟩ := (List.prefix_append_right_inj part).mp h
        have hc := hrest c rfl
        rw [hchars c (by simp)] at hc
        cases hc

/-- Where the word cannot begin it does not matter whether a name may. -/
theorem valueFrom?_free (hword : word ≠ []) (hchars : ∀ c ∈ word, isNameChar c = true)
    (hrest : ∀ c ∈ rest.head?, isNameChar c = false) (free : Bool) :
    valueFrom? word 0 free rest = valueFrom? word 0 false rest := by
  cases rest with
  | nil => rfl
  | cons c rest =>
      have hother : ¬word <+: c :: rest := not_prefix_of_not_isNameChar hword hchars (hrest c rfl)
      rw [valueFrom?_other hother, valueFrom?_other hother]

/-- Behind white space a name may begin. -/
theorem valueFrom?_blank (hword : word ≠ []) (hchars : ∀ c ∈ word, isNameChar c = true)
    (hblank : ∀ c ∈ blank, isWhiteSpace c = true) (free : Bool) (rest : List Char) :
    valueFrom? word 0 free (blank ++ rest) = valueFrom? word 0 (free || !blank.isEmpty) rest := by
  induction blank generalizing free with
  | nil => simp
  | cons c blank ih =>
      have hspace := hblank c List.mem_cons_self
      have hother : ¬word <+: c :: (blank ++ rest) :=
        not_prefix_of_not_isNameChar hword hchars (isNameChar_of_isWhiteSpace hspace)
      rw [List.cons_append, valueFrom?_other hother, ih fun c hc => hblank c (.tail _ hc), hspace]
      simp

/-- A stretch of the text is passed over if it does not have the word where a name may begin, in
front of an equals sign. -/
theorem valueFrom?_stretch (hword : word ≠ []) (hchars : ∀ c ∈ word, isNameChar c = true)
    (hrest : ∀ c ∈ rest.head?, isNameChar c = false)
    (h : ∀ before behind, part = before ++ (word ++ behind) →
      (before = [] ∧ free = true ∨ StandsFree word before) →
      ((behind ++ rest).dropWhile isWhiteSpace).head? ≠ some '=') :
    valueFrom? word 0 free (part ++ rest) = valueFrom? word 0 false rest := by
  -- By induction on what is left of the stretch, where `passed` is in front of it.
  suffices hleft : ∀ (passed left : List Char) (here : Bool), part = passed ++ left →
      (here = true → passed = [] ∧ free = true ∨ StandsFree word passed) →
      valueFrom? word 0 here (left ++ rest) = valueFrom? word 0 false rest from
    hleft [] part free rfl fun hfree => .inl ⟨rfl, hfree⟩
  intro passed left
  induction hlength : left.length using Nat.strong_induction_on generalizing passed left with
  | h length ih =>
      subst hlength
      intro here hpart hhere
      cases left with
      | nil => exact valueFrom?_free hword hchars hrest here
      | cons c left =>
          by_cases hbegins : word <+: c :: left
          · obtain ⟨behind, hbehind⟩ := hbegins
            rw [← hbehind] at hpart ⊢
            rw [List.append_assoc, valueFrom?_word hword, if_neg]
            · refine ih behind.length ?_ (passed ++ word) behind rfl true (by simp [hpart])
                fun _ => .inr (.inr (List.suffix_append _ _))
              have hlength := List.length_pos_iff.mpr hword
              rw [← hbehind, List.length_append]
              omega
            · rintro ⟨rfl, hsign⟩
              exact h passed behind hpart (hhere rfl) hsign
          · have hother : ¬word <+: c :: (left ++ rest) := by
              rw [← List.cons_append]
              exact fun hprefix => hbegins (prefix_of_prefix_append hchars hrest hprefix)
            rw [List.cons_append, valueFrom?_other hother]
            refine ih left.length (Nat.lt_succ_self _) (passed ++ [c]) left rfl _ (by simp [hpart])
              fun hspace => .inr (.inl ?_)
            simpa using hspace

/-- If the first character that is not white space is an equals sign, it is in front of any
character that is neither. -/
theorem head?_dropWhile_of_append {stretch : List Char} (hspace : isWhiteSpace c = false)
    (hsign : c ≠ '=') (h : ((stretch ++ c :: rest).dropWhile isWhiteSpace).head? = some '=') :
    (stretch.dropWhile isWhiteSpace).head? = some '=' := by
  induction stretch with
  | nil =>
      rw [List.nil_append, List.dropWhile_cons_of_neg (by simp [hspace])] at h
      exact absurd (Option.some.inj h) hsign
  | cons first stretch ih =>
      rw [List.cons_append] at h
      by_cases hfirst : isWhiteSpace first = true
      · rw [List.dropWhile_cons_of_pos hfirst] at h ⊢
        exact ih h
      · rw [List.dropWhile_cons_of_neg hfirst] at h ⊢
        exact h

end

/-! ## Attributes -/

namespace Attribute

variable {entry : Attribute} {word rest : List Char} {free : Bool}

/-- What follows the name of an attribute. -/
def behindName (entry : Attribute) (rest : List Char) : List Char :=
  entry.before ++ '=' :: (entry.after ++ entry.quote.char :: (entry.value ++ entry.quote.char ::
    rest))

theorem write_append (entry : Attribute) (rest : List Char) :
    entry.write ++ rest = entry.space ++ (entry.name ++ entry.behindName rest) := by
  simp [write, behindName]

theorem quote_spec (quote : Quote) :
    isNameChar quote.char = false ∧ isWhiteSpace quote.char = false ∧ quote.char ≠ '=' := by
  cases quote <;> decide +kernel

theorem sign_spec : isNameChar '=' = false ∧ isWhiteSpace '=' = false := by
  decide +kernel

theorem dropWhile_behindName (entry : Attribute) (rest : List Char) :
    (entry.behindName rest).dropWhile isWhiteSpace =
      '=' :: (entry.after ++ entry.quote.char :: (entry.value ++ entry.quote.char :: rest)) := by
  rw [behindName, List.dropWhile_append_of_pos entry.before_blank,
    List.dropWhile_cons_of_neg (by simp [sign_spec])]

/-- The value behind the name of an attribute is the one between its quotes. -/
theorem quoted?_behindName (entry : Attribute) (rest : List Char) :
    quoted? (((entry.behindName rest).dropWhile isWhiteSpace).tail.dropWhile isWhiteSpace) =
      some entry.value := by
  have hquote : (entry.quote.char == '"' || entry.quote.char == '\x27') = true := by
    cases entry.quote <;> rfl
  have hvalue : ∀ c ∈ entry.value, (c != entry.quote.char) = true := by
    rintro c hc
    rw [bne_iff_ne]
    rintro rfl
    exact entry.value_chars hc
  rw [dropWhile_behindName, List.tail_cons, List.dropWhile_append_of_pos entry.after_blank,
    List.dropWhile_cons_of_neg (by simp [quote_spec]), quoted?, if_pos (by simp [hquote]),
    List.takeWhile_append_of_pos hvalue, List.takeWhile_cons_of_neg (by simp), List.append_nil]

/-- White space, an equals sign and quotes are not in a name, and so they end one. -/
theorem isNameChar_of_mem_head?_blank {blank rest : List Char} {c : Char}
    (hblank : ∀ c ∈ blank, isWhiteSpace c = true) (hc : isNameChar c = false) :
    ∀ first ∈ (blank ++ c :: rest).head?, isNameChar first = false := by
  cases blank with
  | nil => rintro first ⟨rfl⟩; exact hc
  | cons space blank =>
      rintro first ⟨rfl⟩
      exact isNameChar_of_isWhiteSpace (hblank _ List.mem_cons_self)

/-- A name is passed over if it is another one and does not end with the word behind itself. -/
theorem valueFrom?_name (hword : word ≠ []) (hchars : ∀ c ∈ word, isNameChar c = true)
    (hne : entry.name ≠ word) (h : ¬entry.Mimics word) :
    valueFrom? word 0 true (entry.name ++ entry.behindName rest) =
      valueFrom? word 0 false (entry.behindName rest) := by
  refine valueFrom?_stretch hword hchars
    (isNameChar_of_mem_head?_blank entry.before_blank sign_spec.1) ?_
  intro before behind hname hplace hsign
  cases behind with
  | cons c behind =>
      -- The equals sign would be in the name or behind white space in it.
      have hc : isNameChar c = true := entry.name_chars c (by simp [hname])
      have hspace : ¬isWhiteSpace c = true := fun hspace => by
        simp [isNameChar_of_isWhiteSpace hspace] at hc
      rw [List.cons_append, List.dropWhile_cons_of_neg hspace] at hsign
      obtain rfl := Option.some.inj hsign
      simp [sign_spec] at hc
  | nil =>
      rw [List.append_nil] at hname
      obtain ⟨rfl, -⟩ | hspace | hsuffix := hplace
      · exact hne hname
      · obtain ⟨last, hlast, hspace⟩ := (Option.any_eq_true _ _).mp hspace
        have hspace' := isNameChar_of_isWhiteSpace hspace
        have hlast : last ∈ entry.name := by
          rw [hname]
          exact List.mem_append_left _ (List.mem_of_getLast? hlast)
        simp [entry.name_chars last hlast] at hspace'
      · obtain ⟨front, rfl⟩ := hsuffix
        exact h (.name ⟨front, by rw [hname, List.append_assoc]⟩)

/-- What is behind a name is passed over with the value. -/
theorem valueFrom?_behindName (hword : word ≠ []) (hchars : ∀ c ∈ word, isNameChar c = true)
    (h : ¬entry.Mimics word) :
    valueFrom? word 0 false (entry.behindName rest) = valueFrom? word 0 false rest := by
  have hpass : ∀ {c : Char} {chars : List Char} (free : Bool), isNameChar c = false →
      isWhiteSpace c = false →
      valueFrom? word 0 free (c :: chars) = valueFrom? word 0 false chars := by
    intro c chars free hc hspace
    rw [valueFrom?_other (not_prefix_of_not_isNameChar hword hchars hc), hspace]
  obtain ⟨hquote, hspace, hsign⟩ := quote_spec entry.quote
  rw [behindName, valueFrom?_blank hword hchars entry.before_blank,
    hpass _ sign_spec.1 sign_spec.2, valueFrom?_blank hword hchars entry.after_blank,
    hpass _ hquote hspace, valueFrom?_stretch hword hchars (by simpa using hquote) ?_,
    hpass _ hquote hspace]
  intro before behind hvalue hplace hfound
  obtain ⟨-, hfree⟩ | hfree := hplace
  · cases hfree
  · exact h (.value hvalue hfree (head?_dropWhile_of_append hspace hsign hfound))

/-- An attribute that is not called like the word is passed over. -/
theorem valueFrom?_write_of_ne (hword : word ≠ []) (hchars : ∀ c ∈ word, isNameChar c = true)
    (hne : entry.name ≠ word) (h : ¬entry.Mimics word) :
    valueFrom? word 0 free (entry.write ++ rest) = valueFrom? word 0 false rest := by
  have hspace : entry.space.isEmpty = false := by simpa using entry.space_ne
  rw [write_append, valueFrom?_blank hword hchars entry.space_blank, hspace, Bool.not_false,
    Bool.or_true, valueFrom?_name hword hchars hne h, valueFrom?_behindName hword hchars h]

/-- The attribute that is called like the word gives its value. -/
theorem valueFrom?_write_of_eq (hword : entry.name ≠ []) :
    valueFrom? entry.name 0 free (entry.write ++ rest) = some entry.value := by
  have hspace : entry.space.isEmpty = false := by simpa using entry.space_ne
  rw [write_append, valueFrom?_blank hword entry.name_chars entry.space_blank, hspace,
    Bool.not_false, Bool.or_true, valueFrom?_word hword, if_pos ⟨rfl, by rw [dropWhile_behindName,
      List.head?_cons]⟩, quoted?_behindName]

end Attribute

/-! ## Directives as they are read -/

namespace Directive

variable {directive : Directive} {word : List Char}

/-- The end of a directive has no name in it. -/
theorem valueFrom?_closing {closing : List Char} {free : Bool} (hword : word ≠ [])
    (hchars : ∀ c ∈ word, isNameChar c = true) (hblank : ∀ c ∈ closing, isWhiteSpace c = true) :
    valueFrom? word 0 free (closing ++ ['/', '>']) = none := by
  have hslash : ¬word <+: ['/', '>'] :=
    not_prefix_of_not_isNameChar hword hchars (by decide +kernel)
  have hangle : ¬word <+: ['>'] := not_prefix_of_not_isNameChar hword hchars (by decide +kernel)
  rw [valueFrom?_blank hword hchars hblank, valueFrom?_other hslash, valueFrom?_other hangle]
  rfl

/-- The search comes to the first attribute with the name. -/
theorem valueFrom?_attributes {entries : List Attribute} {rest : List Char} {free : Bool}
    (hword : word ≠ []) (hchars : ∀ c ∈ word, isNameChar c = true)
    (h : ∀ entry ∈ entries.takeWhile (·.name != word), ¬entry.Mimics word)
    (hrest : ∀ free, valueFrom? word 0 free rest = none) :
    valueFrom? word 0 free (entries.flatMap Attribute.write ++ rest) =
      (entries.find? (·.name == word)).map Attribute.value := by
  induction entries generalizing free with
  | nil => exact hrest free
  | cons entry entries ih =>
      rw [List.flatMap_cons, List.append_assoc]
      by_cases hname : entry.name = word
      · subst hname
        rw [Attribute.valueFrom?_write_of_eq hword, List.find?_cons_of_pos (by simp),
          Option.map_some]
      · rw [List.takeWhile_cons_of_pos (by simpa using hname)] at h
        obtain ⟨hentry, hmore⟩ := List.forall_mem_cons.mp h
        rw [Attribute.valueFrom?_write_of_ne hword hchars hname hentry,
          List.find?_cons_of_neg (by simpa using hname), ih hmore]

/-- A name that is distinguished is looked up. -/
theorem valueFrom?_body (hword : word ≠ []) (hchars : ∀ c ∈ word, isNameChar c = true)
    (h : directive.Distinguishes word) :
    valueFrom? word 0 true directive.body = (directive.attribute? word).map Attribute.value :=
  valueFrom?_attributes hword hchars h fun _ =>
    valueFrom?_closing hword hchars directive.closing_blank

/-- The first of the names that an attribute has is found with the value of the attribute. -/
theorem findSome?_of_isPlainFor {names : List (String × ReferenceKind)}
    (hnames : ∀ entry ∈ names, entry.1.toList ≠ [] ∧ entry.1.toList.all isNameChar = true)
    (h : directive.IsPlainFor names) :
    (names.findSome? fun (word, kind) =>
      (valueFrom? word.toList 0 true directive.body).map fun value =>
        (kind, String.ofList value)) =
      names.findSome? fun (word, kind) =>
        (directive.attribute? word.toList).map fun found => (kind, String.ofList found.value) := by
  induction names with
  | nil => rfl
  | cons first names ih =>
      obtain ⟨word, kind⟩ := first
      obtain ⟨⟨hword, hchars⟩, hnames⟩ := List.forall_mem_cons.mp hnames
      obtain ⟨hfirst, hmore⟩ := h
      rw [List.findSome?_cons, List.findSome?_cons]
      simp only [valueFrom?_body hword (List.all_eq_true.mp hchars) hfirst]
      cases hfound : directive.attribute? word.toList with
      | none => exact ih hnames (hmore hfound)
      | some found => rfl

end Directive

/-- The names that a directive is searched for are names. -/
theorem attributes_spec : ∀ entry ∈ attributes,
    entry.1.toList ≠ [] ∧ entry.1.toList.all isNameChar = true := by
  decide +kernel

/-- A directive in which nothing is mistaken for one of the names asks for the first of the names
that is the whole name of an attribute, with the value of the first such attribute. -/
theorem read?_text (directive : Directive) (h : directive.IsPlainFor attributes) :
    read? directive.text = directive.asked? := by
  rw [read?, Directive.text, String.toList_ofList, if_pos (by simp), List.drop_left]
  exact Directive.findSome?_of_isPlainFor attributes_spec h

/-- An attribute behind a blank, without one around its equals sign. -/
def Attribute.tight (name : List Char) (quote : Quote) (value : List Char)
    (name_chars : name.all isNameChar = true) (value_chars : quote.char ∉ value) :
    Attribute where
  space := [' ']
  name := name
  before := []
  after := []
  quote := quote
  value := value
  space_ne := by decide
  space_blank := List.forall_mem_singleton.mpr (by decide)
  name_chars := List.all_eq_true.mp name_chars
  before_blank := List.forall_mem_nil _
  after_blank := List.forall_mem_nil _
  value_chars := value_chars

/-- In `<reference title="a-path='x'" lib='' types="node" />` the attribute `types` counts. -/
def Directive.titled : Directive where
  attributes :=
    [.tight "title".toList .double "a-path='x'".toList (by decide +kernel) (by decide),
     .tight "lib".toList .single [] (by decide +kernel) (by decide),
     .tight "types".toList .double "node".toList (by decide +kernel) (by decide)]
  closing := [' ']
  closing_blank := List.forall_mem_singleton.mpr (by decide)

theorem read?_text_titled :
    Directive.titled.IsPlainFor attributes ∧
      read? "<reference title=\"a-path='x'\" lib='' types=\"node\" />" =
        some (.types, "node") := by
  have hplain : Directive.titled.IsPlainFor attributes := by decide +kernel
  exact ⟨hplain, (read?_text Directive.titled hplain).trans (by decide +kernel)⟩

/-- The name of the one attribute of `<reference pathpath="a" />` is not `path`. -/
def Directive.doubled : Directive where
  attributes := [.tight "pathpath".toList .double ['a'] (by decide +kernel) (by decide)]
  closing := [' ']
  closing_blank := List.forall_mem_singleton.mpr (by decide)

/-- An attribute is read by the end of its name, where a name may begin behind another one. -/
theorem read?_doubled :
    Directive.doubled.text = "<reference pathpath=\"a\" />" ∧ Directive.doubled.asked? = none ∧
      read? Directive.doubled.text = some (.path, "a") := by
  decide +kernel

end Reference

end DeclFile
