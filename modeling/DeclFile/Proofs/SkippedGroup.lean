import DeclFile.Proofs.Enclosure.Body

/-! # How far skipping goes

One count serves for all kinds of brackets, so what is skipped depends only on where the count
comes back to nothing. With properly nested brackets that is at the bracket that closes the first
one; a token that opens nothing is a group by itself; and where the count never comes back,
everything up to the end of the text is skipped.
-/

namespace DeclFile

open DeclFile.Parser (opensGroup closesGroup skipGroup skipTurn)

/-! ## Counting -/

/-- Among these tokens as many brackets close as `depth` and those that open. -/
def ClosesAll (depth : Nat) (tokens : List Token) : Prop :=
  tokens.countP (closesGroup ·.kind) = depth + tokens.countP (opensGroup ·.kind)

theorem closesGroup_of_opensGroup {kind : Kind} (h : opensGroup kind = true) :
    closesGroup kind = false := by
  unfold opensGroup at h
  split at h <;> first | rfl | cases h

theorem closesGroup_of_closer? {kind : Kind} {mark : Mark} (h : closer? kind = some mark) :
    closesGroup (.mark mark) = true := by
  unfold closer? at h
  split at h <;> cases h <;> rfl

/-- A token before others changes what they have to close. -/
theorem closesAll_cons {depth : Nat} {token : Token} {tokens : List Token} :
    ClosesAll depth (token :: tokens) ↔
      ClosesAll (depth + 1) tokens ∧ opensGroup token.kind = true ∨
      tokens.countP (closesGroup ·.kind) + 1 = depth + tokens.countP (opensGroup ·.kind) ∧
        closesGroup token.kind = true ∨
      ClosesAll depth tokens ∧ opensGroup token.kind = false ∧ closesGroup token.kind = false := by
  simp only [ClosesAll, List.countP_cons]
  by_cases hopens : opensGroup token.kind = true
  · simp only [hopens, closesGroup_of_opensGroup hopens, if_true, Bool.false_eq_true, if_false,
      and_true, and_false, or_false, Bool.true_eq_false]
    omega
  · by_cases hcloses : closesGroup token.kind = true
    · simp [hopens, hcloses]
    · simp [hopens, hcloses]

/-- A group does not end if no tokens in front close all that is open. -/
theorem afterGroup_eq_none {depth : Nat} (hdepth : 0 < depth) {tokens : List Token}
    (h : ∀ part, part <+: tokens → ¬ClosesAll depth part) : afterGroup depth tokens = none := by
  induction tokens generalizing depth with
  | nil => rfl
  | cons token rest ih =>
      have hrest (part : List Token) (hpart : part <+: rest) : ¬ClosesAll depth (token :: part) :=
        h _ (List.cons_prefix_cons.mpr ⟨rfl, hpart⟩)
      simp only [closesAll_cons, not_or, not_and] at hrest
      rw [afterGroup, depthAfter]
      by_cases hopens : opensGroup token.kind = true
      · rw [if_pos hopens]
        exact ih (Nat.succ_pos depth) fun part hpart hall => (hrest part hpart).1 hall hopens
      rw [if_neg hopens]
      by_cases hcloses : closesGroup token.kind = true
      · -- It closes one of several groups, since by itself it does not close them all.
        have hfirst := (hrest [] List.nil_prefix).2.1
        have hmore : 1 < depth := by
          by_contra hless
          exact hfirst (by simp only [List.countP_nil]; omega) hcloses
        rw [if_pos hcloses, if_neg (by omega)]
        refine ih (by omega) fun part hpart hall => (hrest part hpart).2.1 ?_ hcloses
        unfold ClosesAll at hall
        omega
      · rw [if_neg hcloses, if_neg (by omega)]
        refine ih hdepth fun part hpart hall => (hrest part hpart).2.2 hall ?_ ?_
        · simpa using hopens
        · simpa using hcloses

/-! ## Skipping -/

/-- Reading these tokens in silence, with `left` still unread. -/
def TokenStream.passing (source : TokenStream) (passed left : List Token) :
    Outcome TokenStream Unit :=
  ⟨some (), [], passed.getLast?.map Token.span, { source with pending := left }⟩

/-- Skipping inside `depth` groups comes to an end after exactly these tokens. -/
def SkipsInside (depth : Nat) (place : Place) (source : TokenStream) (skipped : List Token) :
    Prop :=
  ∃ left, source.pending = skipped ++ left ∧
    Evaluates place (.loop depth skipTurn) source (source.passing skipped left) place.depth

/-- Skipping a group reads exactly these tokens and reports nothing. It does so however many
turns it is given. -/
def Skips (place : Place) (source : TokenStream) (skipped : List Token) : Prop :=
  ∃ left, source.pending = skipped ++ left ∧
    skipGroup.runWith place.reach source = source.passing skipped left ∧
    Evaluates place skipGroup source (source.passing skipped left) place.depth

theorem SkipsInside.skips {place : Place} {source : TokenStream} {skipped : List Token}
    (h : SkipsInside 0 place source skipped) : Skips place source skipped := by
  obtain ⟨left, hpending, hevaluates⟩ := h
  exact ⟨left, hpending, hevaluates.runWith_eq, hevaluates⟩

section

variable {place : Place} {source : TokenStream} {token : Token} {rest skipped : List Token}
  {depth next : Nat}

namespace Evaluates

variable {α β : Type} {first : Parser α} {next : α → Parser β} {found : α}

/-- What is found out before a part has no influence on the outcome. -/
theorem bind_observing {outcome : Outcome TokenStream β}
    (hfirst : Evaluates place first source (.ofResult found source) place.depth)
    (hnext : Evaluates place (next found) source outcome place.depth) :
    Evaluates place (first >>= next) source outcome place.depth := by
  have hbind := hfirst.bind rfl hnext
  rwa [Outcome.ofResult_followedBy, Nat.max_self] at hbind

/-- What is found out after a part changes the result only. -/
theorem bind_observed {result : β} {before : Outcome TokenStream α}
    (hfirst : Evaluates place first source before place.depth)
    (hfound : before.result? = some found)
    (hnext : Parser.Observes (next found) before.rest result) :
    Evaluates place (.bind first next) source (before.withResult? (some result)) place.depth := by
  have hbind := hfirst.bind hfound (hnext place)
  rw [Nat.max_self] at hbind
  simpa [Outcome.followedBy, Outcome.ofResult, Outcome.withResult?] using hbind

end Evaluates

/-- At the end of the text nothing is skipped. -/
theorem SkipsInside.nil (hpending : source.pending = []) : SkipsInside depth place source [] := by
  have hkind : source.peek.kind = .endOfText := source.kind_peek_of_nil hpending
  have hturn : Parser.Observes (skipTurn depth) source (.done ()) := by
    rw [Parser.skipTurn_eq]
    refine Parser.Observes.peekKind.bind ?_
    rw [if_pos hkind]
    exact .pure _
  have hsame : { source with pending := [] } = source := by rw [← hpending]
  refine ⟨[], hpending, ?_⟩
  simpa [TokenStream.passing, Outcome.withResult?, Outcome.ofResult, hsame] using
    (hturn place).loopDone rfl

/-- Before the end of the text a turn reads the next token and counts it. -/
theorem evaluates_skipTurn_cons (place : Place) (depth : Nat) (hends : source.Ends)
    (hpending : source.pending = token :: rest) :
    Evaluates place (skipTurn depth) source
      ⟨some (match depthAfter depth token.kind with
        | some next => .more next
        | none => .done ()), [], some token.span, { source with pending := rest }⟩ place.depth := by
  have hpeek : source.peek = token := by simp [TokenStream.peek, hpending]
  have hkind : token.kind ≠ .endOfText := hends token (by simp [hpending])
  have hread : Parser.readToken source =
      ⟨some token, [], some token.span, { source with pending := rest }⟩ := by
    simp [Parser.readToken, TokenSource.peek, TokenSource.advance, TokenStream.advance, hpeek,
      hkind, hpending]
  have hadvance : Evaluates place .advance source _ place.depth := .advance source
  rw [hread] at hadvance
  rw [Parser.skipTurn_eq]
  refine (Parser.Observes.peekKind place).bind_observing ?_
  rw [hpeek, if_neg hkind]
  cases depthAfter depth token.kind <;> exact hadvance.bind_observed rfl (.pure _)

/-- The token that ends the outermost group is the last one skipped. -/
theorem SkipsInside.last (hends : source.Ends) (hpending : source.pending = token :: rest)
    (hdepth : depthAfter depth token.kind = none) : SkipsInside depth place source [token] := by
  have hturn := evaluates_skipTurn_cons place depth hends hpending
  rw [hdepth] at hturn
  exact ⟨rest, hpending, hturn.loopDone rfl⟩

/-- After any other token skipping goes on. -/
theorem SkipsInside.cons (hends : source.Ends) (hpending : source.pending = token :: rest)
    (hdepth : depthAfter depth token.kind = some next)
    (h : SkipsInside next place { source with pending := rest } skipped) :
    SkipsInside depth place source (token :: skipped) := by
  have hturn := evaluates_skipTurn_cons place depth hends hpending
  rw [hdepth] at hturn
  obtain ⟨left, hskipped, hloop⟩ := h
  have hmore := hturn.loopMore rfl (by simp [TokenSource.unread, hpending]) hloop
  have hlast : (skipped.getLast?.map Token.span).or (some token.span) =
      (token :: skipped).getLast?.map Token.span := by
    rw [List.getLast?_cons]
    cases skipped.getLast? <;> rfl
  rw [Nat.max_self, Outcome.followedBy, TokenStream.passing, hlast] at hmore
  exact ⟨left, hpending.trans (congrArg (token :: ·) hskipped), hmore⟩

/-- Where a group ends, skipping does; and where it does not end, the text does. -/
theorem exists_skipsInside (place : Place) (depth : Nat) (hends : source.Ends) :
    ∃ skipped, SkipsInside depth place source skipped ∧
      source.pending = skipped ++ (afterGroup depth source.pending).getD [] := by
  -- By induction on the unread tokens, with one turn for each.
  generalize hpending : source.pending = tokens
  induction tokens generalizing source depth with
  | nil => exact ⟨[], .nil hpending, rfl⟩
  | cons token rest ih =>
      rw [afterGroup]
      cases hdepth : depthAfter depth token.kind with
      | none => exact ⟨[token], .last hends hpending hdepth, rfl⟩
      | some next =>
          have hrest : TokenStream.Ends { source with pending := rest } := by
            intro other hother
            exact hends other (by simpa [hpending] using .inr hother)
          obtain ⟨skipped, hskips, heq⟩ := ih next hrest rfl
          exact ⟨token :: skipped, .cons hends hpending hdepth hskips,
            congrArg (token :: ·) heq⟩

/-- What is skipped is all that is in front of what is left behind the group. -/
theorem skips_of_afterGroup (hends : source.Ends)
    (h : source.pending = skipped ++ (afterGroup 0 source.pending).getD []) :
    Skips place source skipped := by
  obtain ⟨found, hskips, heq⟩ := exists_skipsInside place 0 hends
  exact List.append_cancel_right (heq.symm.trans h) ▸ hskips.skips

/-- A group is skipped up to the bracket that closes it, whatever follows. -/
theorem skips_group {opening closing : Token} {inside : List Token} {mark : Mark}
    (hends : source.Ends) (hpending : source.pending = opening :: (inside ++ closing :: rest))
    (hopening : closer? opening.kind = some mark) (hclosing : closing.kind = .mark mark)
    (hinside : properlyNested [] inside = true) :
    Skips place source (opening :: (inside ++ [closing])) := by
  have hopens : opensGroup opening.kind = true := by simp [opensGroup_eq, hopening]
  have hcloses : closesGroup closing.kind = true := hclosing ▸ closesGroup_of_closer? hopening
  have hafter : afterGroup 1 (inside ++ closing :: rest) = some rest := by
    simpa using afterGroup_of_properlyNested hinside hcloses
  refine skips_of_afterGroup hends ?_
  rw [hpending, afterGroup, depthAfter, if_pos hopens]
  simpa using congrArg (Option.getD · []) hafter.symm

theorem skips_single (hends : source.Ends) (hpending : source.pending = token :: rest)
    (hopens : opensGroup token.kind = false) : Skips place source [token] :=
  skips_of_afterGroup hends (by simp [hpending, afterGroup, depthAfter, hopens])

/-- A group that does not end is skipped up to the end of the text. -/
theorem skips_unclosed (hends : source.Ends) (hpending : source.pending = token :: rest)
    (hopens : opensGroup token.kind = true)
    (hopen : ∀ part, part ≠ [] → part <+: source.pending → ¬ClosesAll 0 part) :
    Skips place source source.pending := by
  have hafter : afterGroup 1 rest = none := by
    refine afterGroup_eq_none Nat.one_pos fun part hpart hall => ?_
    refine hopen (token :: part) (by simp) ?_ (closesAll_cons.mpr (.inl ⟨hall, hopens⟩))
    exact hpending ▸ List.cons_prefix_cons.mpr ⟨rfl, hpart⟩
  have hgroup : afterGroup 0 (token :: rest) = none := by
    rw [afterGroup, depthAfter, if_pos hopens]
    exact hafter
  exact skips_of_afterGroup hends (by simp [hpending, hgroup])

end

/-- Skipping comes to an end everywhere. A properly nested group is skipped as a whole, a token
that opens none by itself, and all that is left if no tokens in front hold as many closing
brackets as opening ones. -/
theorem skipGroup_skips (place : Place) {source : TokenStream} (hends : source.Ends) :
    (∃ skipped, Skips place source skipped) ∧
    (∀ opening inside closing rest mark,
      source.pending = opening :: (inside ++ closing :: rest) →
      closer? opening.kind = some mark → closing.kind = .mark mark →
      properlyNested [] inside = true → Skips place source (opening :: (inside ++ [closing]))) ∧
    (∀ token rest, source.pending = token :: rest → opensGroup token.kind = false →
      Skips place source [token]) ∧
    (∀ opening rest, source.pending = opening :: rest → opensGroup opening.kind = true →
      (∀ part, part ≠ [] → part <+: source.pending → part.countP (closesGroup ·.kind) ≠
        part.countP (opensGroup ·.kind)) →
      Skips place source source.pending) := by
  refine ⟨?_, ?_, ?_, ?_⟩
  · obtain ⟨skipped, hskips, -⟩ := exists_skipsInside place 0 hends
    exact ⟨skipped, hskips.skips⟩
  · intro opening inside closing rest mark hpending hopening hclosing hinside
    exact skips_group hends hpending hopening hclosing hinside
  · intro token rest hpending hopens
    exact skips_single hends hpending hopens
  · intro opening rest hpending hopens hopen
    refine skips_unclosed hends hpending hopens fun part hne hpart hall => hopen part hne hpart ?_
    rwa [ClosesAll, Nat.zero_add] at hall

/-- A mark as a token of its own. -/
def Mark.token (mark : Mark) : Token := ⟨.mark mark, mark.spelling, default, false⟩

/-- A group with a group inside, in front of a bracket that closes nothing. -/
def bracketedGroup : TokenStream where
  pending := [Mark.openBrace, .openParen, .comma, .closeParen, .closeBrace, .closeBracket].map
    Mark.token
  last := ⟨.endOfText, "", default, true⟩
  size := 7
  directives := []

theorem ends_bracketedGroup : bracketedGroup.Ends := by
  unfold TokenStream.Ends
  decide

theorem skipGroup_skips_bracketedGroup :
    bracketedGroup.Ends ∧
      Skips (.outset default bracketedGroup ⟨0⟩) bracketedGroup
        ([Mark.openBrace, .openParen, .comma, .closeParen, .closeBrace].map Mark.token) :=
  ⟨ends_bracketedGroup,
    (skipGroup_skips (.outset default bracketedGroup ⟨0⟩) ends_bracketedGroup).2.1
    Mark.openBrace.token ([Mark.openParen, .comma, .closeParen].map Mark.token)
    Mark.closeBrace.token [Mark.closeBracket.token] .closeBrace rfl rfl rfl rfl⟩

end DeclFile
