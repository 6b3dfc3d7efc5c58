import DeclFile.Proofs.Enclosure.Declaration
import DeclFile.Proofs.Independence

/-! # Statements go on behind a broken one

Tokens without groups in front of the word `export` at the start of a line make no statement that
takes that word, wherever they break off. A name that ends with a dot is the exception: the word
is its last segment then. So is an initializer that is missing behind its equals sign.
-/

namespace DeclFile

/-- Tokens that open no group, are not the end of the text and do not begin with an export. -/
def Kind.isInterior (kind : Kind) : Bool :=
  !isBracket kind && kind != .mark .openAngle && kind != .endOfText && kind != .word .export

theorem Kind.isInterior_iff {kind : Kind} : kind.isInterior = true ↔ isBracket kind = false ∧
    kind ≠ .mark .openAngle ∧ kind ≠ .endOfText ∧ kind ≠ .word .export := by
  simp [isInterior, and_assoc]

/-- Whether the last of the significant tokens are a word and a dot. -/
def endsInDot (tokens : List Token) : Bool :=
  match ((tokens.map Token.kind).filter (!·.isTrivia)).reverse with
  | .mark .dot :: word :: _ => word.isName
  | _ => false

/-- Whether the last of the significant tokens is an equals sign. -/
def endsInEquals (tokens : List Token) : Bool :=
  ((tokens.map Token.kind).filter (!·.isTrivia)).getLast? == some (.mark .equals)

/-- The tokens before the word `export` at the start of a line. -/
structure BreaksOff (before : List Token) (first : Token) : Prop where
  interior : ∀ token ∈ before, token.kind.isInterior = true
  kind : first.kind = .word .export
  line : first.newlineBefore = true
  dot : ∀ front name dot, before = front ++ [name, dot] → name.kind.isName = true →
    dot.kind ≠ .mark .dot

/-- Of the tokens before, `front` is left. -/
def LeftBefore (before : List Token) (first : Token) (later tokens : List Token) : Prop :=
  ∃ front, front <:+ before ∧ tokens = front ++ first :: later

namespace BreaksOff

variable {before later rest : List Token} {first token : Token}

/-- What is next begins the export or is one of the tokens before. -/
theorem cases_of_left (h : BreaksOff before first)
    (hleft : LeftBefore before first later (token :: rest)) :
    token = first ∨ token.kind.isInterior = true ∧
      ∃ front, token :: front <:+ before ∧ rest = front ++ first :: later := by
  obtain ⟨front, hfront, heq⟩ := hleft
  cases front with
  | nil => exact .inl (List.cons.inj heq).1
  | cons other front =>
      obtain ⟨rfl, rfl⟩ := List.cons.inj heq
      exact .inr ⟨h.interior _ (hfront.subset List.mem_cons_self), front, hfront, rfl⟩

theorem left_tail (h : BreaksOff before first)
    (hleft : LeftBefore before first later (token :: rest)) (hkind : token.kind ≠ .word .export) :
    token.kind.isInterior = true ∧ LeftBefore before first later rest := by
  obtain rfl | ⟨hinterior, front, hfront, rfl⟩ := h.cases_of_left hleft
  · exact absurd h.kind hkind
  · exact ⟨hinterior, front, (List.suffix_cons _ _).trans hfront, rfl⟩

/-- A dot behind a word is not the last of the tokens before. -/
theorem left_segment (h : BreaksOff before first) {name dot word : Token}
    (hname : LeftBefore before first later (name :: dot :: word :: rest))
    (hdot : LeftBefore before first later (dot :: word :: rest))
    (hnameKind : name.kind.isName = true) (hdotKind : dot.kind = .mark .dot) :
    LeftBefore before first later (word :: rest) ∧ LeftBefore before first later rest := by
  have hword := (h.left_tail hdot (by simp [hdotKind])).2
  refine ⟨hword, ?_⟩
  obtain rfl | ⟨-, front, hfront, rfl⟩ := h.cases_of_left hword
  · -- The word would be the one that begins the export, and the tokens before end in a dot.
    obtain ⟨behind, ⟨front, hbefore⟩, heq⟩ := hname
    rcases behind with _ | ⟨name', _ | ⟨dot', _ | ⟨third, more⟩⟩⟩ <;>
      simp only [List.nil_append, List.cons_append, List.cons.injEq] at heq
    · obtain ⟨inside, -, hlength⟩ := hdot
      obtain ⟨rfl, rfl⟩ := heq
      have hlength := congrArg List.length hlength
      simp only [List.length_append, List.length_cons] at hlength
      omega
    · obtain ⟨rfl, rfl, -⟩ := heq
      simp [h.kind] at hdotKind
    · obtain ⟨rfl, rfl, -⟩ := heq
      exact absurd hdotKind (h.dot front _ _ hbefore.symm hnameKind)
    · obtain ⟨rfl, rfl, rfl, -⟩ := heq
      have hinterior := h.interior word (hbefore ▸ by simp)
      exact absurd h.kind (Kind.isInterior_iff.mp hinterior).2.2.2
  · exact ⟨front, (List.suffix_cons _ _).trans hfront, rfl⟩

/-- Behind an equals sign the word `export` is only found where the tokens before end in it. -/
theorem ends_of_equals (h : BreaksOff before first) {sign : Token}
    (hleft : LeftBefore before first later (sign :: token :: rest))
    (hsign : sign.kind = .mark .equals) (hkind : token.kind = .word .export) :
    token = first ∧ before.getLast? = some sign := by
  obtain ⟨behind, ⟨front, hbefore⟩, heq⟩ := hleft
  rcases behind with _ | ⟨sign', _ | ⟨token', more⟩⟩ <;>
    simp only [List.nil_append, List.cons_append, List.cons.injEq] at heq
  · rw [heq.1, h.kind] at hsign
    cases hsign
  · obtain ⟨rfl, rfl, -⟩ := heq
    exact ⟨rfl, by rw [← hbefore, List.getLast?_concat]⟩
  · obtain ⟨-, rfl, -⟩ := heq
    have hinterior := h.interior token (hbefore ▸ by simp)
    exact absurd hkind (Kind.isInterior_iff.mp hinterior).2.2.2

/-- No group opens in front of the export. -/
theorem not_opening (h : BreaksOff before first)
    (hleft : LeftBefore before first later (token :: rest)) :
    ¬(Parser.opensGroup token.kind = true ∨ token.kind = .mark .openAngle) := by
  intro hopens
  have hkind : token.kind ≠ .word .export := by
    intro heq
    simp [heq, Parser.opensGroup] at hopens
  obtain ⟨hbracket, hangle, -⟩ := Kind.isInterior_iff.mp (h.left_tail hleft hkind).1
  simp [isBracket] at hbracket
  simp [hbracket, hangle] at hopens

end BreaksOff

/-- The tokens before the word `export` are a stretch that ends there. If they end in an equals
sign, nothing may be reported about an initializer that would begin with that word. -/
def Enclosure.interior {before : List Token} {first : Token} (h : BreaksOff before first)
    (later : List Token) : Enclosure where
  Home := Unit
  Holds _ := LeftBefore before first later
  Permits diagnostic := before.getLast?.map Token.kind = some (.mark .equals) →
    diagnostic ≠ Cause.computedInitializer.at first.span
  Grouped := False
  next := by
    rintro _ tokens ⟨front, hfront, rfl⟩
    cases front with
    | nil => exact ⟨first, later, rfl, by simp [h.kind]⟩
    | cons token front =>
        have hinterior := h.interior token (hfront.subset List.mem_cons_self)
        exact ⟨token, front ++ first :: later, rfl, (Kind.isInterior_iff.mp hinterior).2.2.1⟩
  common := by
    intro _ token rest hleft hkind
    simp only [Kind.isCommon, Bool.and_eq_true, bne_iff_ne] at hkind
    exact (h.left_tail hleft hkind.2).2
  resumes := by
    intro _ token rest hleft hkind
    obtain rfl | ⟨hinterior, -⟩ := h.cases_of_left hleft
    · exact .inr ⟨id, h.line⟩
    · exact absurd hkind (Kind.isInterior_iff.mp hinterior).2.2.2
  segment hname hdot hnameKind hdotKind _ := h.left_segment hname hdot hnameKind hdotKind
  opening hleft hkind := (h.not_opening hleft hkind).elim
  group hleft hkind := (h.not_opening hleft (.inl hkind)).elim
  brace hleft hkind := (h.not_opening hleft (.inl (hkind ▸ rfl))).elim

theorem Enclosure.interior_keepsInitializers {before : List Token} {first : Token}
    (h : BreaksOff before first) (later : List Token) :
    (Enclosure.interior h later).KeepsInitializers := by
  rintro _ token rest ⟨-, sign, hsign, hleft⟩ hpermits hkind
  obtain ⟨rfl, hlast⟩ := h.ends_of_equals hleft hsign hkind
  exact hpermits (by rw [hlast, Option.map_some, hsign]) rfl

/-! ## The turns before the export -/

namespace BreaksOff

variable {before later : List Token} {first : Token} {limits : Limits} {tokens : TokenStream}
  {file : SourceId}

/-- A turn in front of the export goes on, and does not go beyond it. -/
theorem turn_left (h : BreaksOff before first) (hends : tokens.Ends)
    (hleft : LeftBefore before first later tokens.pending)
    (hnext : tokens.peek.kind ≠ .word .export)
    (hinit : before.getLast?.map Token.kind = some (.mark .equals) →
      Cause.computedInitializer.at first.span ∉ (turnOutcome limits tokens file).reported) :
    ∃ found?, (turnOutcome limits tokens file).result? = some ⟨found?, true⟩ ∧
      LeftBefore before first later (turnOutcome limits tokens file).rest.pending := by
  obtain ⟨⟨_, hevaluates⟩, -⟩ := turnOutcome_evaluates limits file hends
  have : (Place.outset limits tokens file).Encloses (.interior h later) :=
    Place.encloses False.elim _ rfl
  have hcommon : tokens.peek.kind.isCommon = true := by
    have hholds : (Enclosure.interior h later).Holds () tokens.pending := hleft
    rw [(Enclosure.pending_eq hholds).1] at hleft
    obtain ⟨hbracket, -⟩ := Kind.isInterior_iff.mp (h.left_tail hleft hnext).1
    apply Kind.isCommon_of _ _ hnext <;> intro heq <;> rw [heq] at hbracket <;> cases hbracket
  have hstays : (Parser.statementTurn false .endOfText).Leads (Enclosure.interior h later).Permits
      (.outset limits tokens file) tokens (LeftBefore before first later) (fun _ => False)
      fun taken left => taken.again = true ∧ LeftBefore before first later left :=
    @Parser.statementTurn_stays (.interior h later) () _ _ _ id
      (Enclosure.interior_keepsInitializers h later) _ _ hcommon
  have hpermits : ∀ diagnostic ∈ (turnOutcome limits tokens file).reported,
      (Enclosure.interior h later).Permits diagnostic := by
    rintro _ hmem hequals rfl
    exact hinit hequals hmem
  have hturn := hstays hends hleft hevaluates hpermits
  split at hturn
  next taken hresult =>
    obtain ⟨found?, again⟩ := taken
    obtain ⟨rfl, hrest⟩ := hturn
    exact ⟨found?, hresult, hrest⟩
  next => exact hturn.elim

/-- Turn by turn, reading comes to the export, by induction on the tokens before it. -/
theorem statements_suffix (h : BreaksOff before first) (hends : tokens.Ends)
    (hleft : LeftBefore before first later tokens.pending)
    (hinit : before.getLast?.map Token.kind = some (.mark .equals) →
      Cause.computedInitializer.at first.span ∉ (fileOutcome limits tokens file).reported) :
    (fileOutcome limits { tokens with pending := first :: later } file).result?.getD [] <:+
      (fileOutcome limits tokens file).result?.getD [] := by
  induction hlength : tokens.pending.length using Nat.strong_induction_on
    generalizing tokens with
  | _ length ih =>
      obtain ⟨⟨_, hevaluates⟩, hreported, hread⟩ := turnOutcome_evaluates limits file hends
      by_cases hnext : tokens.peek.kind = .word .export
      · obtain ⟨front, hfront, hpending⟩ := hleft
        obtain rfl : front = [] := by
          cases front with
          | nil => rfl
          | cons token front =>
              have hinterior := h.interior token (hfront.subset List.mem_cons_self)
              rw [TokenStream.peek, hpending] at hnext
              exact absurd hnext (Kind.isInterior_iff.mp hinterior).2.2.2
        have hsame : { tokens with pending := first :: later } = tokens := by
          rw [← List.nil_append (first :: later), ← hpending]
        rw [hsame]
      · obtain ⟨found?, hresult, hrest⟩ := h.turn_left hends hleft hnext
          fun hequals hmem => hinit hequals (hreported.subset hmem)
        obtain ⟨count, hskip⟩ := (grammar limits.maxDepth).run_rest file limits.maxDepth
          (Parser.statementTurn false .endOfText) tokens
        change (turnOutcome limits tokens file).rest = _ at hskip
        have hshorter := hread found? hresult
        rw [hlength] at hshorter
        have hlater := ih _ hshorter (hevaluates.ends hends) hrest
          (fun hequals hmem => hinit hequals ?_) rfl
        · rw [statements_of_turn hends hresult]
          rw [hskip] at hlater ⊢
          exact hlater.trans (List.suffix_append _ _)
        · rw [fileOutcome_of_turn hends hresult]
          exact List.mem_append_right _ hmem

end BreaksOff

/-! ## Joined tokens -/

namespace TokenStream

/-- Tokens in front of a significant one that begins a line do not change it. -/
theorem significantOnto_append_line (pending : Bool) (raw more : List Token) {first : Token}
    (hfirst : first.kind.isTrivia = false) (hline : first.newlineBefore = true) :
    significantOnto [] pending (raw ++ first :: more) =
      significantOnto [] pending raw ++ first :: significantOnto [] false more := by
  induction raw generalizing pending with
  | nil =>
      have hkept : { first with newlineBefore := first.newlineBefore || pending } = first := by
        rw [hline, Bool.true_or, ← hline]
      simp only [List.nil_append, significantOnto, hfirst, Bool.false_eq_true, if_false, hkept]
      exact significantOnto_eq _ _ _
  | cons token raw ih =>
      simp only [List.cons_append, significantOnto]
      split
      · exact ih _
      · rw [significantOnto_eq, ih, significantOnto_eq [_] false raw, List.append_assoc]

/-- Tokens in front only stand in front in the stream. -/
theorem ofTokens_of_append {raw more front rest : List Token} {first : Token}
    (hraw : significantOnto [] false raw = front ++ first :: rest)
    (hmore : significantOnto [] false more = first :: rest) (hfirst : first.kind ≠ .endOfText) :
    ∃ later, (ofTokens more).pending = first :: later ∧
      (ofTokens raw).pending = front ++ first :: later ∧
      (ofTokens raw).last = (ofTokens more).last ∧
      (ofTokens more).size ≤ (ofTokens raw).size := by
  obtain rfl | ⟨init, last, rfl⟩ := rest.eq_nil_or_concat'
  · exact ⟨[], by simp [ofTokens, hraw, hmore, hfirst, missingEnd]⟩
  · have hraw' : significantOnto [] false raw = (front ++ first :: init) ++ [last] := by
      simp [hraw]
    have hmore' : significantOnto [] false more = (first :: init) ++ [last] := hmore
    -- Whether the last token is the end of the text, it is so for both.
    by_cases hlast : last.kind = .endOfText
    · refine ⟨init, ?_⟩
      simp only [ofTokens, hraw', hmore', List.getLast?_concat, hlast, dite_true,
        List.dropLast_concat]
      simp
    · refine ⟨init ++ [last], ?_⟩
      simp only [ofTokens, hraw', hmore', List.getLast?_concat, hlast, dite_false, missingEnd]
      simp

theorem kinds_significantOnto (pending : Bool) (raw : List Token) :
    (significantOnto [] pending raw).map Token.kind =
      (raw.map Token.kind).filter (!·.isTrivia) := by
  induction raw generalizing pending with
  | nil => rfl
  | cons token raw ih =>
      simp only [significantOnto]
      split
      next htrivia => simp [ih, htrivia]
      next htrivia => simp [significantOnto_eq [_] false raw, ih, htrivia]

end TokenStream

/-- Among raw tokens only the significant ones matter. -/
theorem breaksOff_of_raw {before : List Token} {first : Token}
    (hbefore : ∀ token ∈ before, token.kind.isInterior = true) (hdot : endsInDot before = false)
    (hkind : first.kind = .word .export) (hline : first.newlineBefore = true) :
    BreaksOff (TokenStream.significantOnto [] false before) first where
  interior token htoken := by
    obtain ⟨other, hother, heq⟩ := TokenStream.kind_of_mem_significantOnto htoken
    exact heq ▸ hbefore other hother
  kind := hkind
  line := hline
  dot := by
    intro front name dot heq hname hdotKind
    rw [endsInDot, ← TokenStream.kinds_significantOnto false, heq] at hdot
    simp [hdotKind, hname] at hdot

/-- A broken statement does not take the next export. Tokens without groups in front of the word
`export` at the start of a line add statements before those that follow, and change none of
these, unless they end in a word and a dot, or they end in an equals sign behind which the word
`export` itself is reported as an initializer. -/
theorem statements_resume_at_export {before more : List Token} {first : Token} {limits : Limits}
    (source : SourceId) (hbefore : ∀ token ∈ before, token.kind.isInterior = true)
    (hdot : endsInDot before = false) (hkind : first.kind = .word .export)
    (hline : first.newlineBefore = true)
    (hends : ∀ token ∈ (first :: more).dropLast, token.kind ≠ .endOfText)
    (hfits : (TokenStream.ofTokens (before ++ first :: more)).size ≤ limits.maxTokens)
    (hinit : endsInEquals before = true → Cause.computedInitializer.at first.span ∉
      (parseTokens (TokenStream.ofTokens (before ++ first :: more)) source limits).diagnostics) :
    (parseTokens (TokenStream.ofTokens (first :: more)) source limits).module.statements <:+
      (parseTokens (TokenStream.ofTokens (before ++ first :: more)) source
        limits).module.statements := by
  have hbreaks := breaksOff_of_raw hbefore hdot hkind hline
  have hsignificant : first.kind.isTrivia = false := by rw [hkind]; rfl
  have hwhole := TokenStream.significantOnto_append_line false before more hsignificant hline
  have halone : TokenStream.significantOnto [] false (first :: more) =
      first :: TokenStream.significantOnto [] false more :=
    TokenStream.significantOnto_append_line false [] more hsignificant hline
  obtain ⟨later, halone, hwhole, hlast, hsize⟩ :=
    TokenStream.ofTokens_of_append hwhole halone (by simp [hkind])
  have hends' : (TokenStream.ofTokens (before ++ first :: more)).Ends := by
    apply TokenStream.ends_ofTokens
    intro token htoken
    rw [List.dropLast_append_of_ne_nil (List.cons_ne_nil _ _)] at htoken
    obtain htoken | htoken := List.mem_append.mp htoken
    · exact (Kind.isInterior_iff.mp (hbefore token htoken)).2.2.1
    · exact hends token htoken
  have hsign (h : (TokenStream.significantOnto [] false before).getLast?.map Token.kind =
      some (.mark .equals)) : endsInEquals before = true := by
    rw [endsInEquals, ← TokenStream.kinds_significantOnto false, List.getLast?_map, h]
    rfl
  have hsuffix := hbreaks.statements_suffix hends' ⟨_, List.suffix_rfl, hwhole⟩
    fun hequals hmem => hinit (hsign hequals) <| by
      rw [parseTokens_of_fitting source (excessTokens?_of_le hfits)]
      exact List.mem_append_right _ hmem
  -- The statements that follow are read from the same tokens as by themselves.
  have hsame : { TokenStream.ofTokens (before ++ first :: more) with pending := first :: later } =
      { TokenStream.ofTokens (first :: more) with
        size := (TokenStream.ofTokens (before ++ first :: more)).size
        directives := (TokenStream.ofTokens (before ++ first :: more)).directives } := by
    simp [halone, hlast]
  rw [hsame, fileOutcome_recounted] at hsuffix
  rw [parseTokens_statements source hfits, parseTokens_statements source (hsize.trans hfits)]
  exact hsuffix

/-- The tokens of a text with two broken statements in front of a type alias. -/
def brokenBefore : List Token :=
  (lex "type A = |;\ndeclare const b: typeof\nexport type C = D;" ⟨0⟩).tokens

theorem statements_resume_at_export_broken :
    (parseTokens (TokenStream.ofTokens brokenBefore) ⟨0⟩ default).diagnostics ≠ [] ∧
    (parseTokens (TokenStream.ofTokens (brokenBefore.drop 10)) ⟨0⟩
      default).module.statements ≠ [] ∧
    (parseTokens (TokenStream.ofTokens (brokenBefore.drop 10)) ⟨0⟩
      default).module.statements <:+
      (parseTokens (TokenStream.ofTokens brokenBefore) ⟨0⟩ default).module.statements := by
  let before := brokenBefore.take 10
  let first := brokenBefore.getD 10 default
  let more := brokenBefore.drop 11
  have hsplit : brokenBefore = before ++ first :: more := by decide +kernel
  have hdrop : brokenBefore.drop 10 = first :: more := by decide +kernel
  have hplace : (∀ token ∈ before, token.kind.isInterior = true) ∧ endsInDot before = false ∧
      endsInEquals before = false ∧ first.kind = .word .export ∧ first.newlineBefore = true ∧
      ∀ token ∈ (first :: more).dropLast, token.kind ≠ .endOfText := by decide +kernel
  have hread : (TokenStream.ofTokens (before ++ first :: more)).size ≤
        (default : Limits).maxTokens ∧
      (parseTokens (TokenStream.ofTokens (before ++ first :: more)) ⟨0⟩ default).diagnostics ≠ [] ∧
      (parseTokens (TokenStream.ofTokens (first :: more)) ⟨0⟩
        default).module.statements.length = 1 := by decide +kernel
  obtain ⟨hbefore, hdot, hequals, hkind, hline, hends⟩ := hplace
  obtain ⟨hfits, hreported, hlength⟩ := hread
  rw [hdrop, hsplit]
  refine ⟨hreported, List.ne_nil_of_length_eq_add_one hlength, ?_⟩
  exact statements_resume_at_export ⟨0⟩ hbefore hdot hkind hline hends hfits
    fun hequals' => absurd hequals' (Bool.eq_false_iff.mp hequals)

/-- The tokens of a type alias whose type ends in a dot, and of an interface. -/
def dottedBefore : List Token := (lex "type T = A.\nexport interface B \x7b\x7d" ⟨0⟩).tokens

/-- The tokens of a constant whose initializer is missing, and of an interface. -/
def unassignedBefore : List Token :=
  (lex "declare const x =\nexport interface B \x7b\x7d" ⟨0⟩).tokens

/-- The word `export` is taken as a segment of a name, and an export as an initializer. -/
theorem export_taken :
    ((dottedBefore.take 6).map Token.kind = [.word .type, .identifier, .mark .equals, .identifier,
        .mark .dot, .word .export] ∧
      dottedBefore[5]?.map Token.newlineBefore = some true ∧
      (parseTokens (TokenStream.ofTokens (dottedBefore.drop 5)) ⟨0⟩ default).diagnostics = [] ∧
      ¬(parseTokens (TokenStream.ofTokens (dottedBefore.drop 5)) ⟨0⟩
        default).module.statements <:+
        (parseTokens (TokenStream.ofTokens dottedBefore) ⟨0⟩ default).module.statements) ∧
    (unassignedBefore.take 5).map Token.kind = [.word .declare, .word .const, .identifier,
        .mark .equals, .word .export] ∧
      unassignedBefore[4]?.map Token.newlineBefore = some true ∧
      (parseTokens (TokenStream.ofTokens (unassignedBefore.drop 4)) ⟨0⟩
        default).diagnostics = [] ∧
      ¬(parseTokens (TokenStream.ofTokens (unassignedBefore.drop 4)) ⟨0⟩
        default).module.statements <:+
        (parseTokens (TokenStream.ofTokens unassignedBefore) ⟨0⟩ default).module.statements := by
  -- Statements at the end of others would have their spans.
  have hdotted : ¬(parseTokens (TokenStream.ofTokens (dottedBefore.drop 5)) ⟨0⟩
      default).module.statements.map Statement.span <:+
      (parseTokens (TokenStream.ofTokens dottedBefore) ⟨0⟩
        default).module.statements.map Statement.span := by decide +kernel
  have hunassigned : ¬(parseTokens (TokenStream.ofTokens (unassignedBefore.drop 4)) ⟨0⟩
      default).module.statements.map Statement.span <:+
      (parseTokens (TokenStream.ofTokens unassignedBefore) ⟨0⟩
        default).module.statements.map Statement.span := by decide +kernel
  refine ⟨⟨by decide +kernel, by decide +kernel, by decide +kernel, fun h => ?_⟩,
    by decide +kernel, by decide +kernel, by decide +kernel, fun h => ?_⟩
  · exact hdotted (h.map Statement.span)
  · exact hunassigned (h.map Statement.span)

end DeclFile
