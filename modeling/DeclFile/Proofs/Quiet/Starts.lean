import DeclFile.Proofs.Quiet.Basic

/-! # Reading from the beginning of a line, or not

A member may begin a line or stand behind another one. Then it is not known whether a line ends in
front of its first token, whatever is known of those after it. How several stretches follow one
another is said of symbols that are placed at the beginning of a line, inside one, or anywhere.
-/

namespace DeclFile

/-! ## Where a line may end in front -/

section

variable [Layout]

/-- The unread tokens are written like the symbols, but a line may end in front of the first one. -/
def Starts : List Symbol → Ahead
  | [] => Heads []
  | symbol :: symbols => fun stream => ∃ token rest, stream.pending = token :: rest ∧
      token.Matches symbol ∧ Heads symbols { stream with pending := rest }

variable {stream : TokenStream} {symbol : Symbol} {symbols : List Symbol}

theorem Heads.starts (h : Heads symbols stream) : Starts symbols stream := by
  cases symbols with
  | nil => exact h
  | cons symbol symbols =>
      obtain ⟨token, rest, hpending, hstands, hrest⟩ := Heads.cons_iff.mp h
      exact ⟨token, rest, hpending, ⟨hstands.kind, hstands.text⟩, hrest⟩

namespace Starts

theorem advance (h : Starts (symbol :: symbols) stream) : Heads symbols stream.advance := by
  obtain ⟨token, rest, hpending, -, hrest⟩ := h
  simpa [TokenStream.advance, hpending] using hrest

theorem matches_peek (h : Starts (symbol :: symbols) stream) : stream.peek.Matches symbol := by
  obtain ⟨token, rest, hpending, hmatches, -⟩ := h
  simpa [TokenStream.peek, hpending] using hmatches

theorem ahead_succ (h : Starts (symbol :: symbols) stream) (n : Nat) :
    stream.ahead (n + 1) = stream.advance.ahead n := by
  obtain ⟨token, rest, hpending, -, -⟩ := h
  simp [TokenStream.ahead, TokenStream.advance, hpending]

theorem kind_ahead (h : Starts symbols stream) (n : Nat) :
    (stream.ahead n).kind = kindAt symbols n := by
  cases symbols with
  | nil => exact Heads.kind_ahead h n
  | cons symbol symbols =>
      cases n with
      | zero =>
          rw [TokenStream.ahead_zero]
          exact h.matches_peek.kind
      | succ n =>
          rw [h.ahead_succ]
          exact h.advance.kind_ahead n

theorem length_pending (h : Starts symbols stream) :
    stream.pending.length = symbols.length + Layout.behind.pending.length := by
  cases symbols with
  | nil => exact Heads.length_pending h
  | cons symbol symbols =>
      obtain ⟨token, rest, hpending, -, hrest⟩ := h
      have hlength := hrest.length_pending
      simp only [hpending, List.length_cons] at hlength ⊢
      omega

end Starts

namespace Parser

variable {reach : Reach TokenStream}

namespace Gives

theorem kindAhead_starts (n : Nat) :
    (Parser.kindAhead n).Gives reach (Starts symbols) (Starts symbols) (· = kindAt symbols n) :=
  kindAhead_of fun _ hsource => hsource.kind_ahead n

theorem peekKind_starts :
    Parser.peekKind.Gives reach (Starts symbols) (Starts symbols) (· = kindAt symbols 0) :=
  kindAhead_starts 0

theorem peek_starts :
    Parser.peek.Gives reach (Starts (symbol :: symbols)) (Starts (symbol :: symbols))
      (Token.Matches · symbol) := by
  intro source hsource
  refine ⟨source.ahead 0, none, source, rfl, hsource, ?_⟩
  rw [TokenStream.ahead_zero]
  exact hsource.matches_peek

/-- The token behind the first one. -/
theorem look_starts {next : Symbol} :
    (Parser.look 1).Gives reach (Starts (symbol :: next :: symbols))
      (Starts (symbol :: next :: symbols)) (Token.Stands · next) := by
  intro source hsource
  refine ⟨source.ahead 1, none, source, rfl, hsource, ?_⟩
  rw [hsource.ahead_succ, TokenStream.ahead_zero]
  exact hsource.advance.stands_peek

theorem advance_starts :
    Parser.advance.Gives reach (Starts (symbol :: symbols)) symbols (Token.Matches · symbol) :=
  fun source hsource => ⟨source.peek, _, source.advance, rfl, hsource.advance, hsource.matches_peek⟩

theorem expect_starts {kind : Kind} (h : symbol.kind = kind) :
    (Parser.expect kind).Gives reach (Starts (symbol :: symbols)) symbols
      (Token.Matches · symbol) := by
  refine peekKind_starts.known ?_
  rw [kindAt_zero, if_pos h]
  exact advance_starts

theorem skipIf_starts {kind : Kind} (h : kindAt symbols 0 ≠ kind) :
    (Parser.skipIf kind).Gives reach (Starts symbols) (Starts symbols) (· = false) := by
  refine peekKind_starts.known ?_
  rw [if_neg h]
  exact .pure rfl

end Gives

end Parser

end

/-! ## Placed symbols -/

/-- A symbol, and whether a line ends in front of it, where that matters. -/
structure Placed where
  symbol : Symbol
  line : Option Bool

/-- The token is written like the symbol, and at the beginning of a line or not as is said. -/
structure Token.StandsAs (token : Token) (place : Placed) : Prop where
  kind : token.kind = place.symbol.kind
  text : token.text = place.symbol.text
  line : ∀ line ∈ place.line, token.newlineBefore = line

instance (token : Token) (place : Placed) : Decidable (token.StandsAs place) :=
  decidable_of_iff (token.kind = place.symbol.kind ∧ token.text = place.symbol.text ∧
      ∀ line ∈ place.line, token.newlineBefore = line)
    ⟨fun h => ⟨h.1, h.2.1, h.2.2⟩, fun h => ⟨h.kind, h.text, h.line⟩⟩

/-- The unread tokens are written like the placed symbols. -/
def TokenStream.Fills (stream : TokenStream) (places : List Placed) : Prop :=
  List.Forall₂ Token.StandsAs stream.pending places

instance (stream : TokenStream) (places : List Placed) : Decidable (stream.Fills places) :=
  inferInstanceAs (Decidable (List.Forall₂ Token.StandsAs stream.pending places))

/-- Symbols on any lines. -/
def placeFreely (symbols : List Symbol) : List Placed := symbols.map (⟨·, none⟩)

/-- Symbols on one line, where for the first one it is given whether it begins that. -/
def placeLine (line : Option Bool) : List Symbol → List Placed
  | [] => []
  | first :: rest => ⟨first, line⟩ :: rest.map (⟨·, some false⟩)

/-- The unread tokens are written like the placed symbols, and then something is left. -/
def Spread (behind : TokenStream) (places : List Placed) : Ahead := fun stream =>
  ∃ tokens, List.Forall₂ Token.StandsAs tokens places ∧
    stream = { behind with pending := tokens ++ behind.pending }

namespace Spread

variable {behind stream : TokenStream} {places : List Placed} {place : Placed}
  {symbols : List Symbol} {line : Option Bool}

theorem of_fills (h : stream.Fills places) : Spread stream.finished places stream :=
  ⟨stream.pending, h, congrArg (fun pending => { stream with pending }) (List.append_nil _).symm⟩

theorem nil_iff : Spread behind [] stream ↔ stream = behind := by
  simp [Spread]

theorem append {first second : List Placed} (h : Spread behind (first ++ second) stream) :
    ∃ middle, Spread behind second middle ∧ Spread middle first stream := by
  obtain ⟨tokens, htokens, rfl⟩ := h
  refine ⟨_, ⟨_, List.forall₂_drop_append _ _ _ htokens, rfl⟩, _,
    List.forall₂_take_append _ _ _ htokens, ?_⟩
  simp [← List.append_assoc]

theorem standsAs_peek (h : Spread behind (place :: places) stream) :
    stream.peek.StandsAs place := by
  obtain ⟨_, _ | ⟨hstands, -⟩, rfl⟩ := h
  exact hstands

theorem heads (h : Spread behind (placeFreely symbols) stream) :
    @Heads (.lines behind) symbols stream := by
  let _ := Layout.lines behind
  obtain ⟨tokens, htokens, rfl⟩ := h
  rw [placeFreely, List.forall₂_map_right_iff] at htokens
  exact ⟨tokens, htokens.imp fun _ _ hstands => ⟨hstands.kind, hstands.text, nofun⟩, rfl⟩

theorem starts (h : Spread behind (placeLine line symbols) stream) :
    @Starts (.line behind) symbols stream := by
  let _ := Layout.line behind
  obtain ⟨tokens, htokens, rfl⟩ := h
  cases symbols with
  | nil =>
      cases htokens
      exact ⟨[], .nil, rfl⟩
  | cons first rest =>
      obtain _ | ⟨hfirst, hrest⟩ := htokens
      rw [List.forall₂_map_right_iff] at hrest
      exact ⟨_, _, rfl, ⟨hfirst.kind, hfirst.text⟩, _, hrest.imp fun _ _ hstands =>
        ⟨hstands.kind, hstands.text, fun _ => hstands.line false rfl⟩, rfl⟩

/-- What is known of the first token behind a line. -/
theorem kindAt_behind (h : Spread behind (place :: places) stream) :
    @kindAt (.line stream) [] 0 = place.symbol.kind := by
  obtain ⟨_, _ | ⟨hstands, -⟩, rfl⟩ := h
  exact hstands.kind

theorem lineAt_behind (h : Spread behind (place :: places) stream) (hline : place.line = some true) :
    @lineAt (.line stream) [] = true := by
  obtain ⟨_, _ | ⟨hstands, -⟩, rfl⟩ := h
  exact hstands.line true hline

theorem advance (h : Spread behind (place :: places) stream) : Spread behind places stream.advance := by
  obtain ⟨_, _ | ⟨-, htokens⟩, rfl⟩ := h
  exact ⟨_, htokens, rfl⟩

theorem length_pending (h : Spread behind places stream) :
    stream.pending.length = places.length + behind.pending.length := by
  obtain ⟨tokens, htokens, rfl⟩ := h
  rw [List.length_append, htokens.length_eq]

end Spread

namespace Parser.Gives

variable {α : Type} {reach : Reach TokenStream} {behind : TokenStream} {place : Placed}
  {places : List Placed} {symbols : List Symbol} {parser : Parser α} {after : Ahead} {Q : α → Prop}

theorem peek_spread : Parser.peek.Gives reach (Spread behind (place :: places))
    (Spread behind (place :: places)) (Token.StandsAs · place) := by
  intro source hsource
  refine ⟨source.ahead 0, none, source, rfl, hsource, ?_⟩
  rw [TokenStream.ahead_zero]
  exact hsource.standsAs_peek

theorem advance_spread : Parser.advance.Gives reach (Spread behind (place :: places))
    (Spread behind places) (Token.StandsAs · place) :=
  fun source hsource =>
    ⟨source.peek, _, source.advance, rfl, hsource.advance, hsource.standsAs_peek⟩

theorem peekKind_spread : Parser.peekKind.Gives reach (Spread behind (place :: places))
    (Spread behind (place :: places)) (· = place.symbol.kind) :=
  peek_spread.bind fun _ htoken => .pure htoken.kind

theorem expect_spread {kind : Kind} (h : place.symbol.kind = kind) :
    (Parser.expect kind).Gives reach (Spread behind (place :: places)) (Spread behind places)
      (Token.StandsAs · place) := by
  refine peekKind_spread.known ?_
  rw [if_pos h]
  exact advance_spread

/-- Symbols on any lines are read with what is left of the rest behind them. -/
theorem of_freely (h : ∀ middle, Spread behind places middle →
      parser.Gives reach (@Heads (.lines middle) symbols) after Q) :
    parser.Gives reach (Spread behind (placeFreely symbols ++ places)) after Q := by
  intro source hsource
  obtain ⟨middle, hmiddle, hfirst⟩ := hsource.append
  exact h middle hmiddle source hfirst.heads

/-- So are symbols on one line, which they may begin or not. -/
theorem of_line {line : Option Bool} (h : ∀ middle, Spread behind places middle →
      parser.Gives reach (@Starts (.line middle) symbols) after Q) :
    parser.Gives reach (Spread behind (placeLine line symbols ++ places)) after Q := by
  intro source hsource
  obtain ⟨middle, hmiddle, hfirst⟩ := hsource.append
  exact h middle hmiddle source hfirst.starts

end Parser.Gives

end DeclFile
