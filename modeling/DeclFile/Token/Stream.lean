import DeclFile.Token.Lexed

/-! # Token sources and streams

A token source yields significant tokens one after another and keeps yielding the end of
the text once it is reached. Sources are values, so that going back means keeping the old
value. A stream is the source made from lexed tokens: comments are dropped, directives are
set aside, and the line breaks around both count for the next significant token.
-/

namespace DeclFile

/-- What a reader of tokens needs. Looking further ahead has a default by stepping, and a
source need not know its number of tokens or any directives. No place ahead is the next token. -/
class TokenSource (σ : Type) where
  /-- The next token, which stays unread. -/
  peek : σ → Token
  /-- The source after its next token is read. -/
  advance : σ → σ
  /-- A bound on how many tokens are unread before the end of the text. -/
  unread : σ → Nat
  /-- The token `n` places ahead. -/
  ahead : σ → Nat → Token := fun source n => peek (Nat.repeat advance n source)
  ahead_zero (source : σ) : ahead source 0 = peek source := by intro; rfl
  /-- The number of significant tokens, the end of the text included. -/
  count? : σ → Option Nat := fun _ => none
  /-- The directives seen, in order. -/
  directives : σ → List Token := fun _ => []

/-- The laws of a source: looking ahead is stepping and peeking, and until the end of the
text each token read is one fewer unread. -/
class LawfulTokenSource (σ : Type) [TokenSource σ] : Prop where
  ahead_eq (source : σ) (n : Nat) :
    TokenSource.ahead source n = TokenSource.peek (Nat.repeat TokenSource.advance n source)
  unread_advance (source : σ) (h : (TokenSource.peek source).kind ≠ .endOfText) :
    TokenSource.unread (TokenSource.advance source) < TokenSource.unread source
  unread_advance_le (source : σ) :
    TokenSource.unread (TokenSource.advance source) ≤ TokenSource.unread source

/-- Significant tokens that are still unread, with the end of the text after them. -/
structure TokenStream where
  pending : List Token
  last : Token
  /-- How many significant tokens the whole text has, its end included. -/
  size : Nat
  directives : List Token
  last_kind : last.kind = .endOfText := by rfl
deriving DecidableEq, Repr

namespace TokenStream

/-- Whether a line break is pending after the trivia `token`. A directive always ends its
line. -/
def pendsAfter (pending : Bool) (token : Token) : Bool :=
  pending || token.newlineBefore || token.kind == .directive

/-- The significant tokens of `raw`, in front of which `sofar` stands in reverse; `pending`
says whether trivia just passed held a line break. -/
def significantOnto (sofar : List Token) : (pending : Bool) → (raw : List Token) → List Token
  | _, [] => sofar.reverse
  | pending, token :: raw =>
      if token.kind.isTrivia then significantOnto sofar (pendsAfter pending token) raw
      else
        let kept := { token with newlineBefore := token.newlineBefore || pending }
        significantOnto (kept :: sofar) false raw

/-- What was kept before only stands in front. -/
theorem significantOnto_eq (sofar : List Token) (pending : Bool) (raw : List Token) :
    significantOnto sofar pending raw = sofar.reverse ++ significantOnto [] pending raw := by
  induction raw generalizing sofar pending with
  | nil => simp [significantOnto]
  | cons token raw ih =>
      simp only [significantOnto]
      split
      · exact ih sofar _
      · rw [ih, ih [_]]
        simp

/-- The end of the text that stands in where the tokens have none: just after the last one,
and at the start of a line. -/
def missingEnd (tokens : List Token) : Token :=
  let span := match tokens.getLast? with
    | some token => Span.point token.span.source token.span.stop
    | none => default
  ⟨.endOfText, "", span, true⟩

/-- The stream of the significant tokens among `raw`. -/
def ofTokens (raw : List Token) : TokenStream :=
  let tokens := significantOnto [] false raw
  let directives := raw.filter (·.kind == .directive)
  match tokens.getLast? with
  | some token =>
      if h : token.kind = .endOfText then
        ⟨tokens.dropLast, token, tokens.length, directives, h⟩
      else ⟨tokens, missingEnd tokens, tokens.length + 1, directives, rfl⟩
  | none => ⟨[], missingEnd [], 1, directives, rfl⟩

/-- The next token. -/
def peek (stream : TokenStream) : Token := stream.pending.headD stream.last

/-- The stream after its next token is read. -/
def advance (stream : TokenStream) : TokenStream :=
  { stream with pending := stream.pending.tail }

/-- The token `n` places ahead, or the end of the text. -/
def ahead (stream : TokenStream) (n : Nat) : Token := stream.pending[n]?.getD stream.last

@[simp] theorem ahead_zero (stream : TokenStream) : stream.ahead 0 = stream.peek := by
  simp [ahead, peek, List.headD_eq_head?_getD, List.head?_eq_getElem?]

instance : TokenSource TokenStream where
  peek := peek
  advance := advance
  unread stream := stream.pending.length
  ahead := ahead
  ahead_zero := ahead_zero
  count? stream := some stream.size
  directives := directives

theorem repeat_advance (stream : TokenStream) (n : Nat) :
    Nat.repeat advance n stream = { stream with pending := stream.pending.drop n } := by
  induction n with
  | zero => rfl
  | succ n ih => rw [Nat.repeat, ih, advance, List.tail_drop]

theorem ahead_eq (stream : TokenStream) (n : Nat) :
    stream.ahead n = (Nat.repeat advance n stream).peek := by
  rw [repeat_advance]
  simp only [ahead, peek, List.headD_eq_head?_getD, List.head?_drop]

theorem length_advance_lt {stream : TokenStream} (h : stream.peek.kind ≠ .endOfText) :
    stream.advance.pending.length < stream.pending.length := by
  cases hpending : stream.pending with
  | nil => simp [peek, hpending, stream.last_kind] at h
  | cons token rest => simp [advance, hpending]

theorem length_advance_le (stream : TokenStream) :
    stream.advance.pending.length ≤ stream.pending.length := by
  simp [advance]

instance : LawfulTokenSource TokenStream where
  ahead_eq := ahead_eq
  unread_advance _ h := length_advance_lt h
  unread_advance_le := length_advance_le

end TokenStream

/-- A stream seen as a source that can only be peeked at and read. -/
structure PlainStream where
  stream : TokenStream
deriving DecidableEq, Repr

namespace PlainStream

instance : TokenSource PlainStream where
  peek plain := plain.stream.peek
  advance plain := ⟨plain.stream.advance⟩
  unread plain := plain.stream.pending.length

instance : LawfulTokenSource PlainStream where
  ahead_eq _ _ := rfl
  unread_advance plain h := plain.stream.length_advance_lt h
  unread_advance_le plain := plain.stream.length_advance_le

end PlainStream

/-- A source that is lent out: its owner does everything. -/
structure Borrowed (σ : Type) where
  owner : σ
deriving DecidableEq, Repr

namespace Borrowed

variable {σ : Type} [TokenSource σ]

instance : TokenSource (Borrowed σ) where
  peek borrowed := TokenSource.peek borrowed.owner
  advance borrowed := ⟨TokenSource.advance borrowed.owner⟩
  unread borrowed := TokenSource.unread borrowed.owner
  ahead borrowed := TokenSource.ahead borrowed.owner
  ahead_zero borrowed := TokenSource.ahead_zero borrowed.owner
  count? borrowed := TokenSource.count? borrowed.owner
  directives borrowed := TokenSource.directives borrowed.owner

theorem repeat_advance (borrowed : Borrowed σ) (n : Nat) :
    Nat.repeat TokenSource.advance n borrowed = ⟨Nat.repeat TokenSource.advance n borrowed.owner⟩ := by
  induction n with
  | zero => rfl
  | succ n ih => rw [Nat.repeat, ih]; rfl

instance [LawfulTokenSource σ] : LawfulTokenSource (Borrowed σ) where
  ahead_eq borrowed n := by
    rw [repeat_advance]
    exact LawfulTokenSource.ahead_eq borrowed.owner n
  unread_advance borrowed h := LawfulTokenSource.unread_advance borrowed.owner h
  unread_advance_le borrowed := LawfulTokenSource.unread_advance_le borrowed.owner

end Borrowed

end DeclFile
