import Mathlib.Data.List.Infix
import DeclFile.Parser.Basic
import DeclFile.Proofs.Evaluation

/-! # What parsers do, one by one

A parser meets a specification on a stream if it comes to an end there, reads a stretch of
the tokens, reports only at places of the text, and has a result for which a condition
holds. The condition may speak about clean runs, in which nothing is reported, and about the
file that the spans of the run are of. Rules for the ways of building parsers let each parser be
judged from the parts it is made of.
-/

namespace DeclFile

/-- The span in a file from the first to the last of some tokens. -/
def extent (file : SourceId) : List Token → Span
  | [] => default
  | first :: rest => .between file first.span.start ((rest.getLast?).getD first).span.stop

theorem extent_eq {file : SourceId} {tokens : List Token} {first last : Token}
    (hfirst : tokens.head? = some first) (hlast : tokens.getLast? = some last) :
    extent file tokens = .between file first.span.start last.span.stop := by
  obtain ⟨rest, rfl⟩ := List.head?_eq_some_iff.mp hfirst
  rw [List.getLast?_cons, Option.some_inj] at hlast
  rw [extent, hlast]

/-- The span is in the file from the first to the last of the tokens, or is that of a single one. -/
inductive Spans (file : SourceId) : List Token → Span → Prop
  | extent {read : List Token} (hread : read ≠ []) : Spans file read (extent file read)
  | token (token : Token) : Spans file [token] token.span

namespace Spans

variable {file : SourceId} {read more : List Token} {span : Span}

theorem ne_nil (h : Spans file read span) : read ≠ [] := by
  cases h with
  | extent hread => exact hread
  | token => simp

/-- The span begins with the first of the tokens. -/
theorem exists_head (h : Spans file read span) :
    ∃ first, read.head? = some first ∧ span.start = first.span.start := by
  cases h with
  | extent hread =>
      obtain _ | ⟨first, rest⟩ := read
      · exact absurd rfl hread
      exact ⟨first, rfl, rfl⟩
  | token first => exact ⟨first, rfl, rfl⟩

/-- From where some tokens begin to where others end, all of them are spanned. -/
theorem between_append (h : Spans file read span) {last : Token}
    (hlast : more.getLast? = some last) :
    .between file span.start last.span.stop = DeclFile.extent file (read ++ more) := by
  obtain ⟨first, hfirst, hstart⟩ := h.exists_head
  have heq : DeclFile.extent file (read ++ more) = .between file first.span.start last.span.stop :=
    extent_eq (by simp [hfirst]) (by simp [List.getLast?_append, hlast])
  rw [heq, hstart]

end Spans

/-- The span is one over some tokens of a text. -/
def Marks (file : SourceId) (text : List Token) (span : Span) : Prop :=
  ∃ part, part <:+: text ∧ Spans file part span

namespace TokenStream

/-- The unread tokens, the end of the text included. -/
def tokens (stream : TokenStream) : List Token := stream.pending ++ [stream.last]

theorem peek_mem_tokens (stream : TokenStream) : stream.peek ∈ stream.tokens := by
  cases hpending : stream.pending <;> simp [peek, tokens, hpending]

/-- Before the end of the text, the next token is the first unread one. -/
theorem pending_eq_of_peek {stream : TokenStream} (h : stream.peek.kind ≠ .endOfText) :
    stream.pending = stream.peek :: stream.advance.pending := by
  cases hpending : stream.pending with
  | nil => simp [peek, hpending, stream.last_kind] at h
  | cons token rest => simp [peek, advance, hpending]

/-- The end of the text is next where no other token is left. -/
theorem pending_eq_nil_of_peek {stream : TokenStream}
    (hends : ∀ token ∈ stream.pending, token.kind ≠ .endOfText)
    (h : stream.peek.kind = .endOfText) : stream.pending = [] := by
  cases hpending : stream.pending with
  | nil => rfl
  | cons token rest =>
      have hpeek : stream.peek = token := by simp [peek, hpending]
      exact absurd (hpeek ▸ h) (hends token (by simp [hpending]))

end TokenStream

/-- A place in the nesting of goals and a text that is read there. -/
structure Setting extends Place where
  /-- All significant tokens of the text, its end included. -/
  text : List Token

namespace Setting

/-- The streams that parsers in a setting run on: what is left of its text, inside the goal
around, with one end of the text. -/
structure Admits (setting : Setting) (source : TokenStream) : Prop where
  ends : ∀ token ∈ source.pending, token.kind ≠ .endOfText
  inside : source.pending.length ≤ setting.entry
  suffix : source.tokens <:+ setting.text

/-- A token was read since the goal around was reached. -/
def Started (setting : Setting) (source : TokenStream) : Prop :=
  source.pending.length < setting.entry

/-- In a setting, reading `read` leads from one stream to the other. -/
structure Follows (setting : Setting) (source : TokenStream) (read : List Token)
    (rest : TokenStream) : Prop where
  admits : setting.Admits source
  pending : source.pending = read ++ rest.pending
  last : rest.last = source.last

variable {setting : Setting} {source middle rest : TokenStream} {read more : List Token}

theorem Admits.marks_token (h : setting.Admits source) {token : Token}
    (htoken : token ∈ source.tokens) : Marks setting.file setting.text token.span :=
  ⟨[token], (List.singleton_infix_iff _ _).mpr (h.suffix.subset htoken), .token token⟩

theorem Admits.refl (h : setting.Admits source) : setting.Follows source [] source :=
  ⟨h, rfl, rfl⟩

namespace Follows

theorem admits_rest (h : setting.Follows source read rest) : setting.Admits rest where
  ends token htoken := h.admits.ends token (by simp [h.pending, htoken])
  inside := by
    have hinside := h.admits.inside
    simp only [h.pending, List.length_append] at hinside
    omega
  suffix := by
    refine List.IsSuffix.trans ⟨read, ?_⟩ h.admits.suffix
    simp [TokenStream.tokens, h.pending, h.last]

theorem trans (h : setting.Follows source read middle) (h' : setting.Follows middle more rest) :
    setting.Follows source (read ++ more) rest where
  admits := h.admits
  pending := by rw [h.pending, h'.pending, List.append_assoc]
  last := h'.last.trans h.last

theorem started (h : setting.Follows source read rest) (hread : read ≠ []) :
    setting.Started rest := by
  have hinside := h.admits.inside
  have hlength := List.length_pos_iff.mpr hread
  simp only [h.pending, List.length_append] at hinside
  unfold Started
  omega

theorem stays_started (h : setting.Follows source read rest) (hstarted : setting.Started source) :
    setting.Started rest := by
  unfold Started at hstarted ⊢
  simp only [h.pending, List.length_append] at hstarted
  omega

/-- What is read is part of the text. -/
theorem marks (h : setting.Follows source read rest) (hread : read ≠ []) :
    Marks setting.file setting.text (extent setting.file read) := by
  refine ⟨read, List.IsInfix.trans ?_ h.admits.suffix.isInfix, .extent hread⟩
  exact ⟨[], rest.tokens, by simp [TokenStream.tokens, h.pending, h.last]⟩

theorem marks_token (h : setting.Follows source read rest) {token : Token}
    (htoken : token ∈ read) : Marks setting.file setting.text token.span :=
  h.admits.marks_token (by simp [TokenStream.tokens, h.pending, htoken])

theorem length_lt (h : setting.Follows source read rest) (hread : read ≠ []) :
    rest.pending.length < source.pending.length := by
  have hlength := List.length_pos_iff.mpr hread
  simp only [h.pending, List.length_append]
  omega

end Follows

end Setting

/-- The outcome of reading `read` from the source: the rest is what comes after it, its last
token is the last one read, and all reports are at places of the text. -/
structure Outcome.Reads {α : Type} (setting : Setting) (source : TokenStream)
    (outcome : Outcome TokenStream α) (read : List Token) : Prop where
  follows : setting.Follows source read outcome.rest
  lastRead : outcome.lastRead = read.getLast?.map Token.span
  marks : ∀ diagnostic ∈ outcome.reported, Marks setting.file setting.text diagnostic.span

theorem Outcome.Reads.followedBy {α β : Type} {setting : Setting} {source : TokenStream}
    {first : Outcome TokenStream α} {second : Outcome TokenStream β} {read more : List Token}
    (hfirst : first.Reads setting source read) (hsecond : second.Reads setting first.rest more) :
    (first.followedBy second).Reads setting source (read ++ more) where
  follows := hfirst.follows.trans hsecond.follows
  lastRead := by
    simp only [Outcome.followedBy, hfirst.lastRead, hsecond.lastRead, List.getLast?_append]
    cases more.getLast? <;> simp
  marks diagnostic hmem := by
    obtain hmem | hmem := List.mem_append.mp hmem
    · exact hfirst.marks diagnostic hmem
    · exact hsecond.marks diagnostic hmem

/-- The result satisfies a condition or, where there is none, `failing` holds. -/
def Outcome.Yields {σ α : Type} (outcome : Outcome σ α) (failing : Prop) (Q : α → Prop) :
    Prop :=
  match outcome.result? with
  | some result => Q result
  | none => failing

namespace Outcome

variable {σ α : Type} {outcome : Outcome σ α} {failing : Prop} {Q : α → Prop}

theorem yields_of_none (h : outcome.result? = none) : outcome.Yields failing Q ↔ failing := by
  rw [Yields, h]

theorem yields_of_some (result : α) (h : outcome.result? = some result) :
    outcome.Yields failing Q ↔ Q result := by
  rw [Yields, h]

end Outcome

/-- A run of a parser, as far as it is spoken about. -/
structure Run where
  /-- Nothing is reported. -/
  clean : Prop
  /-- The file that spans are of. -/
  file : SourceId

namespace Parser

/-- On an admitted source in the file of the run, unless the run is clean and yet something is
reported, the parser comes to an end, what it reads and its result satisfy `Q`, and it fails only
where `failing` holds. -/
def Meets {α : Type} (run : Run) (setting : Setting) (parser : Parser α) (source : TokenStream)
    (failing : Prop) (Q : List Token → α → Prop) : Prop :=
  run.file = setting.file → setting.Admits source →
    (run.clean → (parser.runWith setting.reach source).reported = []) →
    (∃ peak, Evaluates setting.toPlace parser source (parser.runWith setting.reach source) peak) ∧
    ∃ read, (parser.runWith setting.reach source).Reads setting source read ∧
      (parser.runWith setting.reach source).Yields failing (Q read)

namespace Meets

variable {run : Run} {setting : Setting} {source : TokenStream} {failing : Prop}
variable {α β : Type}

/-- A condition may be weakened with all that is known of the run. -/
theorem imp {parser : Parser α} {P Q : List Token → α → Prop} {failing' : Prop}
    (h : parser.Meets run setting source failing P) (hfailing : failing → failing')
    (hpost : ∀ {read result rest}, setting.Follows source read rest → P read result →
      Q read result) :
    parser.Meets run setting source failing' Q := by
  intro hfile hadmits hclean
  obtain ⟨hevaluates, read, hreads, hyields⟩ := h hfile hadmits hclean
  refine ⟨hevaluates, read, hreads, ?_⟩
  cases hresult : (parser.runWith setting.reach source).result? with
  | none =>
      rw [Outcome.yields_of_none hresult] at hyields ⊢
      exact hfailing hyields
  | some result =>
      rw [Outcome.yields_of_some _ hresult] at hyields ⊢
      exact hpost hreads.follows hyields

/-- A condition may be weakened. -/
theorem mono {parser : Parser α} {P Q : List Token → α → Prop}
    (h : parser.Meets run setting source failing P)
    (hpost : ∀ {read result}, P read result → Q read result) :
    parser.Meets run setting source failing Q :=
  h.imp id fun _ => hpost

/-- Where a failure is undone, it need not be loud. -/
theorem quietly {parser : Parser α} {Q : List Token → α → Prop}
    (h : parser.Meets run setting source failing Q) :
    parser.Meets run setting source True Q :=
  h.imp (fun _ => trivial) fun _ => id

/-- What is admitted may be used. -/
theorem of_admits {parser : Parser α} {Q : List Token → α → Prop}
    (h : setting.Admits source → parser.Meets run setting source failing Q) :
    parser.Meets run setting source failing Q :=
  fun hfile hadmits => h hadmits hfile hadmits

/-- The file of the run is that of the setting. -/
theorem of_file {parser : Parser α} {Q : List Token → α → Prop}
    (h : run.file = setting.file → parser.Meets run setting source failing Q) :
    parser.Meets run setting source failing Q :=
  fun hfile => h hfile hfile

theorem pure {result : α} {Q : List Token → α → Prop} (h : Q [] result) :
    (Pure.pure result : Parser α).Meets run setting source failing Q :=
  fun _ hadmits _ => ⟨⟨_, .pure result source⟩, [],
    ⟨hadmits.refl, rfl, by simp [Pure.pure, runWith, Outcome.ofResult]⟩, h⟩

theorem fail {Q : List Token → α → Prop} (h : failing) :
    (Parser.fail : Parser α).Meets run setting source failing Q :=
  fun _ hadmits _ => ⟨⟨_, .fail source⟩, [],
    ⟨hadmits.refl, rfl, by simp [runWith, Outcome.failure]⟩, h⟩

theorem runWith_bind (first : Parser α) (next : α → Parser β)
    (reach : Reach TokenStream) :
    (first >>= next).runWith reach source =
      (first.runWith reach source).andThen fun result rest => (next result).runWith reach rest :=
  rfl

theorem bind {first : Parser α} {next : α → Parser β} {M : List Token → α → Prop}
    {Q : List Token → β → Prop} (hfirst : first.Meets run setting source failing M)
    (hnext : ∀ {read result rest}, setting.Follows source read rest → M read result →
      (next result).Meets run setting rest failing fun more final => Q (read ++ more) final) :
    (first >>= next).Meets run setting source failing Q := by
  intro hfile hadmits
  rw [runWith_bind, Outcome.andThen]
  have hfirst := hfirst hfile hadmits
  generalize first.runWith setting.reach source = before at hfirst
  obtain ⟨_ | result, reported, lastRead, rest⟩ := before
  · intro hclean
    obtain ⟨⟨peak, hevaluates⟩, read, hreads, hyields⟩ := hfirst hclean
    exact ⟨⟨peak, .bindFailed hevaluates rfl⟩, read, ⟨hreads.follows, hreads.lastRead, hreads.marks⟩,
      hyields⟩
  · intro hclean
    simp only [Outcome.followedBy, List.append_eq_nil_iff] at hclean
    obtain ⟨⟨peak₁, hevaluates₁⟩, read, hreads, hyields⟩ := hfirst fun h => (hclean h).1
    obtain ⟨⟨peak₂, hevaluates₂⟩, more, hreads', hyields'⟩ :=
      hnext hreads.follows hyields hfile hreads.follows.admits_rest fun h => (hclean h).2
    exact ⟨⟨_, .bind hevaluates₁ rfl hevaluates₂⟩, read ++ more, hreads.followedBy hreads', hyields'⟩

theorem map {parser : Parser α} {f : α → β} {Q : List Token → β → Prop}
    (h : parser.Meets run setting source failing fun read result => Q read (f result)) :
    (f <$> parser).Meets run setting source failing Q :=
  bind h fun _ hresult => pure (by simpa using hresult)

/-! ## Looking ahead -/

end Meets

/-- On a source, the parser only finds something out: it reads and reports nothing. -/
def Observes {α : Type} (parser : Parser α) (source : TokenStream) (result : α) : Prop :=
  ∀ place, Evaluates place parser source (.ofResult result source) place.depth

namespace Observes

variable {α β : Type} {source : TokenStream}

theorem pure (result : α) : Observes (Pure.pure result) source result :=
  fun _ => .pure result source

theorem bind {first : Parser α} {next : α → Parser β} {result : α} {final : β}
    (hfirst : Observes first source result) (hnext : Observes (next result) source final) :
    Observes (first >>= next) source final := by
  intro place
  have hbind := Evaluates.bind (hfirst place) rfl (hnext place)
  rwa [Outcome.ofResult_followedBy, Nat.max_self] at hbind

theorem exists_bind {first : Parser α} {next : α → Parser β} {result : α}
    (hfirst : Observes first source result) (hnext : ∃ final, Observes (next result) source final) :
    ∃ final, Observes (first >>= next) source final :=
  hnext.imp fun _ => hfirst.bind

theorem look (n : Nat) : Observes (.look n) source (source.ahead n) :=
  fun _ => .look n source

theorem peek : Observes peek source source.peek := by
  rw [← source.ahead_zero]
  exact look 0

theorem peekKind : Observes peekKind source source.peek.kind :=
  peek.bind (pure _)

theorem kindAhead (n : Nat) : Observes (kindAhead n) source (source.ahead n).kind :=
  (look n).bind (pure _)

theorem nextIs (kind : Kind) : Observes (nextIs kind) source (source.peek.kind == kind) :=
  peekKind.bind (pure _)

theorem atLineStart : Observes atLineStart source source.peek.newlineBefore :=
  peek.bind (pure _)

variable {run : Run} {failing : Prop} {setting : Setting}

/-- What is found out first may be put in its place. -/
theorem meets {first : Parser α} {next : α → Parser β} {result : α}
    {Q : List Token → β → Prop} (hfirst : Observes first source result)
    (hnext : (next result).Meets run setting source failing Q) :
    (first >>= next).Meets run setting source failing Q := by
  have hrun : (first >>= next).runWith setting.reach source =
      (next result).runWith setting.reach source := by
    rw [Meets.runWith_bind, (hfirst setting.toPlace).runWith_eq]
    exact Outcome.ofResult_followedBy _ _ _
  intro hfile hadmits
  rw [hrun]
  intro hclean
  obtain ⟨⟨peak, hevaluates⟩, hreads⟩ := hnext hfile hadmits hclean
  have hbind := Evaluates.bind (hfirst setting.toPlace) rfl hevaluates
  rw [Outcome.ofResult_followedBy] at hbind
  exact ⟨⟨_, hbind⟩, hreads⟩

end Observes

namespace Meets

variable {run : Run} {setting : Setting} {source : TokenStream} {failing : Prop}
variable {α β : Type}

/-! ## Reading and reporting -/

/-- Reading a token before the end of the text reads the next one. -/
theorem advance {Q : List Token → Token → Prop} (hkind : source.peek.kind ≠ .endOfText)
    (h : Q [source.peek] source.peek) :
    Parser.advance.Meets run setting source failing Q := by
  intro _ hadmits _
  refine ⟨⟨_, .advance source⟩, [source.peek], ⟨⟨hadmits, ?_, rfl⟩, ?_, ?_⟩, h⟩
  · exact source.pending_eq_of_peek hkind
  · exact if_neg hkind
  · simp [runWith, readToken]

/-- Reading a token reads the next one, or nothing at the end of the text. -/
theorem advance_any {Q : List Token → Token → Prop}
    (h : source.peek.kind ≠ .endOfText → Q [source.peek] source.peek)
    (hend : source.peek.kind = .endOfText → Q [] source.peek) :
    Parser.advance.Meets run setting source failing Q := by
  by_cases hkind : source.peek.kind = .endOfText
  · refine of_admits fun hadmits => ?_
    have hpending := TokenStream.pending_eq_nil_of_peek hadmits.ends hkind
    intro _ _ _
    refine ⟨⟨_, .advance source⟩, [], ⟨⟨hadmits, ?_, rfl⟩, ?_, ?_⟩, hend hkind⟩
    · simp [runWith, readToken, TokenSource.advance, TokenStream.advance, hpending]
    · exact if_pos hkind
    · simp [runWith, readToken]
  · exact advance hkind (h hkind)

/-- A report is only made where the run is not clean. -/
theorem report {diagnostic : Diagnostic} {Q : List Token → Unit → Prop}
    (hmarks : Marks setting.file setting.text diagnostic.span) (h : ¬run.clean → Q [] ()) :
    (Parser.report diagnostic).Meets run setting source failing Q := by
  intro hfile hadmits hclean
  refine ⟨⟨_, .report diagnostic source⟩, [], ⟨hadmits.refl, rfl, ?_⟩, h fun hc => ?_⟩
  · simpa [runWith] using hmarks
  · simpa [runWith] using hclean hc

theorem reportHere {cause : Cause} {Q : List Token → Unit → Prop} (h : ¬run.clean → Q [] ()) :
    (Parser.reportHere cause).Meets run setting source failing Q :=
  of_admits fun hadmits => Observes.peek.meets
    (report (hadmits.marks_token source.peek_mem_tokens) h)

theorem refuse {cause : Kind → Cause} {Q : List Token → α → Prop} :
    (Parser.refuse cause).Meets run setting source (¬run.clean) Q :=
  of_admits fun hadmits => Observes.peek.meets <|
    (report (Q := fun _ _ => ¬run.clean) (hadmits.marks_token source.peek_mem_tokens) id).bind
      fun _ => fail

/-- A token of the kind is read, or another one is next and nothing is read. -/
theorem skipIf {kind : Kind} {Q : List Token → Bool → Prop} (hkind : kind ≠ .endOfText)
    (hyes : ∀ token, token.kind = kind → Q [token] true)
    (hno : source.peek.kind ≠ kind → Q [] false) :
    (Parser.skipIf kind).Meets run setting source failing Q := by
  refine Observes.peekKind.meets ?_
  split
  next heq =>
    refine (advance (Q := fun read _ => read = [source.peek]) (heq ▸ hkind) rfl).bind ?_
    rintro _ _ rest _ rfl
    exact .pure (hyes _ heq)
  next hne => exact .pure (hno hne)

theorem expect {kind : Kind} {Q : List Token → Token → Prop} (hkind : kind ≠ .endOfText)
    (h : ∀ token, token.kind = kind → Q [token] token) :
    (Parser.expect kind).Meets run setting source (¬run.clean) Q := by
  refine Observes.peekKind.meets ?_
  split
  next heq => exact advance (heq ▸ hkind) (h _ heq)
  next => exact refuse

/-! ## Spans, attempts and failures -/

/-- The span that is added goes on to the end of what is read, from its beginning or from where
the tokens `before` begin. -/
theorem withSpan_between {start? : Option Pos} (before : List Token) {inner : Parser α}
    {Q : List Token → α × Span → Prop}
    (hstart : ∀ {read last}, (∃ rest, setting.Follows source read rest) →
      read.getLast? = some last →
      .between run.file (start?.getD source.peek.span.start) last.span.stop =
        extent run.file (before ++ read))
    (h : inner.Meets run setting source failing fun read result =>
      read ≠ [] ∧ Q read (result, extent run.file (before ++ read))) :
    (Parser.withSpan start? inner).Meets run setting source failing Q := by
  intro hfile hadmits hclean
  have hinner := h hfile hadmits hclean
  have hrun : (Parser.withSpan start? inner).runWith setting.reach source =
      (inner.runWith setting.reach source).spannedFrom setting.file
        (start?.getD source.peek.span.start) := by
    rw [runWith, Place.file_reach]
    rfl
  rw [hrun]
  generalize inner.runWith setting.reach source = outcome at hinner
  obtain ⟨⟨peak, hevaluates⟩, read, hreads, hyields⟩ := hinner
  refine ⟨⟨peak, .withSpan hevaluates⟩, read, ⟨hreads.follows, hreads.lastRead, hreads.marks⟩, ?_⟩
  cases hresult : outcome.result? with
  | none =>
      rw [Outcome.yields_of_none hresult] at hyields
      rwa [Outcome.yields_of_none (by simp [Outcome.spannedFrom, Outcome.withResult?, hresult])]
  | some result =>
      obtain ⟨hread, hpost⟩ := (Outcome.yields_of_some _ hresult).mp hyields
      obtain ⟨last, hlast⟩ := Option.ne_none_iff_exists'.mp (mt List.getLast?_eq_none_iff.mp hread)
      have hspan : outcome.spanFrom setting.file (start?.getD source.peek.span.start) =
          extent run.file (before ++ read) := by
        rw [← hstart ⟨_, hreads.follows⟩ hlast, hfile]
        simp [Outcome.spanFrom, hreads.lastRead, hlast]
      rw [Outcome.yields_of_some (result, extent run.file (before ++ read))
        (by simp [Outcome.spannedFrom, Outcome.withResult?, hresult, hspan])]
      exact hpost

/-- The span that is added is the extent of what is read. -/
theorem withSpan {inner : Parser α} {Q : List Token → α × Span → Prop}
    (h : inner.Meets run setting source failing fun read result =>
      read ≠ [] ∧ Q read (result, extent run.file read)) :
    (Parser.withSpan none inner).Meets run setting source failing Q := by
  refine withSpan_between [] (fun {read last} ⟨rest, hfollows⟩ hlast => ?_) h
  have hfirst : read.head? = some source.peek := by
    obtain _ | ⟨token, tokens⟩ := read
    · simp at hlast
    · simp [TokenStream.peek, hfollows.pending]
  exact (extent_eq hfirst hlast).symm

/-- The span that is added from the beginning of a node on is the extent of its tokens, those that
were read after it, and what is read now. -/
theorem withSpan_of_spans {inner : Parser α} {node : List Token} {span : Span}
    {Q : List Token → α × Span → Prop} (hnode : Spans run.file node span) (after : List Token)
    (h : inner.Meets run setting source failing fun read result =>
      read ≠ [] ∧ Q read (result, extent run.file (node ++ (after ++ read)))) :
    (Parser.withSpan (some span.start) inner).Meets run setting source failing Q := by
  simp only [← List.append_assoc] at h
  refine withSpan_between _ (fun {read last} _ hlast => ?_) h
  rw [List.append_assoc]
  exact hnode.between_append (by simp [List.getLast?_append, hlast])

theorem spanned {inner : Parser α} {make : α → Span → β} {Q : List Token → β → Prop}
    (h : inner.Meets run setting source failing fun read result =>
      read ≠ [] ∧ Q read (make result (extent run.file read))) :
    (Parser.spanned make inner).Meets run setting source failing Q :=
  (withSpan (Q := fun read found => Q read (make found.1 found.2)) h).bind
    fun {_ found _} _ hpost => by
      obtain ⟨result, span⟩ := found
      exact .pure (by simpa only [List.append_nil] using hpost)

/-- What fails or reports in an attempt is undone, so that an attempt that succeeds is clean,
whatever surrounds it. -/
theorem attempt {inner : Parser α} {Q : List Token → Option α → Prop}
    {M : Run → List Token → α → Prop} (h : ∀ run, inner.Meets run setting source True (M run))
    (hsome : ∀ {read result}, M run read result → Q read (some result))
    (hnone : Q [] none) :
    (Parser.attempt inner).Meets run setting source failing Q := by
  intro hfile hadmits _
  have hrun : (Parser.attempt inner).runWith setting.reach source =
      (inner.runWith setting.reach source).attempted source := rfl
  rw [hrun]
  obtain ⟨⟨peak, hevaluates⟩, -⟩ := h ⟨False, run.file⟩ hfile hadmits False.elim
  refine ⟨⟨peak, .attempt hevaluates⟩, ?_⟩
  have hinner := h run hfile hadmits
  unfold Outcome.attempted
  split
  next result hresult hreported =>
    obtain ⟨-, read, hreads, hyields⟩ := hinner fun _ => hreported
    rw [Outcome.yields_of_some _ hresult] at hyields
    exact ⟨read, ⟨hreads.follows, hreads.lastRead, hreads.marks⟩, hsome hyields⟩
  next => exact ⟨[], ⟨hadmits.refl, rfl, by simp [Outcome.ofResult]⟩, hnone⟩

/-- What follows an attempt is judged with its result, and where nothing was read. -/
theorem attempt_bind {inner : Parser α} {next : Option α → Parser β} {Q : List Token → β → Prop}
    {M : Run → List Token → α → Prop} (h : ∀ run, inner.Meets run setting source True (M run))
    (hsome : ∀ {read result rest}, setting.Follows source read rest → M run read result →
      (next (some result)).Meets run setting rest failing fun more final => Q (read ++ more) final)
    (hnone : ∀ {rest}, setting.Follows source [] rest →
      (next none).Meets run setting rest failing Q) :
    (Parser.attempt inner >>= next).Meets run setting source failing Q := by
  refine bind (attempt (Q := fun read result? =>
    (∃ result, result? = some result ∧ M run read result) ∨ (result? = none ∧ read = [])) h
    (fun hresult => .inl ⟨_, rfl, hresult⟩) (.inr ⟨rfl, rfl⟩)) fun hfollows hread => ?_
  obtain ⟨result, rfl, hresult⟩ | ⟨rfl, rfl⟩ := hread
  · exact hsome hfollows hresult
  · exact hnone hfollows

/-- A part that fails is loud, and it made progress if and only if it read something. -/
theorem settle {inner : Parser α} {Q : List Token → Settled α → Prop}
    {M : List Token → α → Prop} (h : inner.Meets run setting source (¬run.clean) M)
    (hdone : ∀ {read result}, M read result → Q read (.done result))
    (hfailed : ∀ {read}, ¬run.clean → Q read (.failed !read.isEmpty)) :
    (Parser.settle inner).Meets run setting source failing Q := by
  intro hfile hadmits hclean
  have hrun : (Parser.settle inner).runWith setting.reach source =
      (inner.runWith setting.reach source).withResult?
        (some (inner.runWith setting.reach source).settled) := rfl
  have hinner := h hfile hadmits hclean
  rw [hrun]
  generalize inner.runWith setting.reach source = outcome at hinner
  obtain ⟨⟨peak, hevaluates⟩, read, hreads, hyields⟩ := hinner
  refine ⟨⟨peak, .settle hevaluates⟩, read,
    ⟨hreads.follows, hreads.lastRead, hreads.marks⟩, ?_⟩
  rw [Outcome.yields_of_some outcome.settled rfl, Outcome.settled]
  cases hresult : outcome.result? with
  | none =>
      have hprogress : outcome.lastRead.isSome = !read.isEmpty := by
        rw [hreads.lastRead]
        cases read <;> simp [List.getLast?_cons]
      simpa only [hprogress] using hfailed ((Outcome.yields_of_none hresult).mp hyields)
  | some result => exact hdone ((Outcome.yields_of_some _ hresult).mp hyields)

/-- What follows a part is judged with its result, and with what was read where it failed. -/
theorem settle_bind {inner : Parser α} {next : Settled α → Parser β} {Q : List Token → β → Prop}
    {M : List Token → α → Prop} (h : inner.Meets run setting source (¬run.clean) M)
    (hdone : ∀ {read result rest}, setting.Follows source read rest → M read result →
      (next (.done result)).Meets run setting rest failing fun more final => Q (read ++ more) final)
    (hfailed : ∀ {read rest}, setting.Follows source read rest → ¬run.clean →
      (next (.failed !read.isEmpty)).Meets run setting rest failing
        fun more final => Q (read ++ more) final) :
    (Parser.settle inner >>= next).Meets run setting source failing Q := by
  refine bind (settle (Q := fun read settled =>
    (∃ result, settled = .done result ∧ M read result) ∨
      (settled = .failed !read.isEmpty ∧ ¬run.clean)) h
    (fun hresult => .inl ⟨_, rfl, hresult⟩) fun hnoisy => .inr ⟨rfl, hnoisy⟩) fun hfollows hread => ?_
  obtain ⟨result, rfl, hresult⟩ | ⟨rfl, hnoisy⟩ := hread
  · exact hdone hfollows hresult
  · exact hfailed hfollows hnoisy

theorem optional {inner : Parser α} {Q : List Token → Option α → Prop}
    {M : List Token → α → Prop} (h : inner.Meets run setting source (¬run.clean) M)
    (hsome : ∀ {read result}, M read result → Q read (some result))
    (hnone : ∀ {read}, ¬run.clean → Q read none) :
    (Parser.optional inner).Meets run setting source failing Q :=
  settle_bind h (fun _ hresult => .pure (by simpa using hsome hresult))
    fun _ hnoisy => .pure (by simpa using hnone hnoisy)

theorem optional_bind {inner : Parser α} {next : Option α → Parser β} {Q : List Token → β → Prop}
    {M : List Token → α → Prop} (h : inner.Meets run setting source (¬run.clean) M)
    (hsome : ∀ {read result rest}, setting.Follows source read rest → M read result →
      (next (some result)).Meets run setting rest failing fun more final => Q (read ++ more) final)
    (hnone : ∀ {read rest}, setting.Follows source read rest → ¬run.clean →
      (next none).Meets run setting rest failing fun more final => Q (read ++ more) final) :
    (Parser.optional inner >>= next).Meets run setting source failing Q := by
  refine bind (optional (Q := fun read result? =>
    (∃ result, result? = some result ∧ M read result) ∨ (result? = none ∧ ¬run.clean)) h
    (fun hresult => .inl ⟨_, rfl, hresult⟩) fun hnoisy => .inr ⟨rfl, hnoisy⟩) fun hfollows hread => ?_
  obtain ⟨result, rfl, hresult⟩ | ⟨rfl, hnoisy⟩ := hread
  · exact hsome hfollows hresult
  · exact hnone hfollows hnoisy

theorem expectOrReport {kind : Kind} {Q : List Token → Unit → Prop} (hkind : kind ≠ .endOfText)
    (h : ∀ token, token.kind = kind → Q [token] ()) (hmissing : ∀ {read}, ¬run.clean → Q read ()) :
    (Parser.expectOrReport kind).Meets run setting source failing Q := by
  refine (optional (Q := fun read _ => (∃ token, read = [token] ∧ token.kind = kind) ∨ ¬run.clean)
    (expect hkind fun token heq => ⟨token, rfl, heq⟩) .inl .inr).bind fun _ hread => .pure ?_
  rw [List.append_nil]
  obtain ⟨token, rfl, heq⟩ | hnoisy := hread
  · exact h token heq
  · exact hmissing hnoisy

/-! ## Loops and goals -/

/-- Turns keep what was reported before them. -/
theorem reported_prefix_iterate {σ : Type} (turn : β → σ → Outcome σ (Step β α)) (turns : Nat)
    (state : β) (sofar : Outcome σ Unit) :
    sofar.reported <+: (iterate turn turns state sofar).reported := by
  induction turns generalizing state sofar with
  | zero => exact List.prefix_refl _
  | succ turns ih =>
      rw [iterate]
      split
      next next _ =>
        refine List.IsPrefix.trans ?_ (ih next _)
        exact List.prefix_append _ _
      all_goals exact List.prefix_append _ _

/-- An invariant of what was read and of the state carries through a loop in which every turn
that goes on reads something. -/
theorem iterate_of_invariant (hfile : run.file = setting.file) {turn : β → Parser (Step β α)}
    {Q : List Token → α → Prop} (inv : List Token → β → Prop)
    (hturn : ∀ {read state rest}, setting.Follows source read rest → inv read state →
      (turn state).Meets run setting rest failing fun more step => match step with
        | .more next => more ≠ [] ∧ inv (read ++ more) next
        | .done result => Q (read ++ more) result)
    (turns : Nat) {read : List Token} {state : β} (sofar : Outcome TokenStream Unit)
    (hfollows : setting.Follows source read sofar.rest) (hinv : inv read state)
    (hturns : sofar.rest.pending.length < turns)
    (hclean : run.clean → (iterate (fun state rest => (turn state).runWith setting.reach rest) turns
      state sofar).reported = []) :
    ∃ outcome peak more, iterate (fun state rest => (turn state).runWith setting.reach rest) turns
        state sofar = sofar.followedBy outcome ∧
      Evaluates setting.toPlace (.loop state turn) sofar.rest outcome peak ∧
      outcome.Reads setting sofar.rest more ∧ outcome.Yields failing (Q (read ++ more)) := by
  induction turns generalizing read state sofar with
  | zero => exact absurd hturns (Nat.not_lt_zero _)
  | succ turns ih =>
      have htaken := hturn hfollows hinv hfile hfollows.admits_rest
      rw [iterate] at hclean ⊢
      generalize (turn state).runWith setting.reach sofar.rest = taken at hclean htaken ⊢
      cases hresult : taken.result? with
      | none =>
          simp only [hresult, Outcome.followedBy, List.append_eq_nil_iff] at hclean
          obtain ⟨⟨peak, hevaluates⟩, more, hreads, hyields⟩ := htaken fun hc => (hclean hc).2
          refine ⟨_, peak, more, rfl, .loopFailed hevaluates hresult,
            ⟨hreads.follows, hreads.lastRead, hreads.marks⟩, ?_⟩
          rwa [Outcome.yields_of_none hresult] at hyields
      | some step =>
          cases step with
          | done result =>
              simp only [hresult, Outcome.followedBy, List.append_eq_nil_iff] at hclean
              obtain ⟨⟨peak, hevaluates⟩, more, hreads, hyields⟩ := htaken fun hc => (hclean hc).2
              refine ⟨_, peak, more, rfl, .loopDone hevaluates hresult,
                ⟨hreads.follows, hreads.lastRead, hreads.marks⟩, ?_⟩
              rwa [Outcome.yields_of_some _ hresult] at hyields
          | more next =>
              simp only [hresult] at hclean
              have hquiet : run.clean → taken.reported = [] := fun hc => by
                have hprefix := reported_prefix_iterate
                  (fun state rest => (turn state).runWith setting.reach rest) turns next
                  (sofar.followedBy (taken.withResult? (some ())))
                rw [hclean hc] at hprefix
                exact (List.append_eq_nil_iff.mp (List.prefix_nil.mp hprefix)).2
              obtain ⟨⟨peak₁, hevaluates₁⟩, more₁, hreads₁, hyields₁⟩ := htaken hquiet
              obtain ⟨hmore₁, hinv₁⟩ := (Outcome.yields_of_some _ hresult).mp hyields₁
              have hless := hreads₁.follows.length_lt hmore₁
              obtain ⟨after, peak₂, more₂, heq, hevaluates₂, hreads₂, hyields₂⟩ :=
                ih (sofar.followedBy (taken.withResult? (some ())))
                  (hfollows.trans hreads₁.follows) hinv₁
                  (Nat.lt_of_lt_of_le hless (Nat.le_of_lt_succ hturns)) hclean
              refine ⟨taken.followedBy after, _, more₁ ++ more₂, ?_,
                .loopMore hevaluates₁ hresult hless hevaluates₂,
                hreads₁.followedBy hreads₂, ?_⟩
              · exact heq.trans (Outcome.followedBy_assoc sofar (taken.withResult? (some ())) after)
              · rw [← List.append_assoc]
                exact hyields₂

/-- An invariant of what was read and of the state carries through a loop in which every turn
that goes on reads something. -/
theorem loop {init : β} {turn : β → Parser (Step β α)} {Q : List Token → α → Prop}
    (inv : List Token → β → Prop) (hinit : inv [] init)
    (hturn : ∀ {read state rest}, setting.Follows source read rest → inv read state →
      (turn state).Meets run setting rest failing fun more step => match step with
        | .more next => more ≠ [] ∧ inv (read ++ more) next
        | .done result => Q (read ++ more) result) :
    (Parser.loop init turn).Meets run setting source failing Q := by
  intro hfile hadmits hclean
  rw [runWith] at hclean ⊢
  obtain ⟨outcome, peak, read, heq, hevaluates, hreads, hyields⟩ :=
    iterate_of_invariant hfile inv hturn (source.pending.length + 1)
      (.ofResult () source) hadmits.refl hinit (Nat.lt_succ_self _) hclean
  rw [Outcome.ofResult_followedBy] at heq
  change iterate _ (TokenSource.unread source + 1) _ _ = _ at heq
  rw [heq]
  exact ⟨⟨peak, hevaluates⟩, read, hreads, hyields⟩

/-- An invariant carries through collecting, and the last turn may establish more. -/
theorem collectUntil {turn : Parser (Turn α)} {Q : List Token → List α → Prop}
    (inv : List Token → List α → Prop) (hinit : inv [] [])
    (hturn : ∀ {read collected rest}, setting.Follows source read rest → inv read collected →
      turn.Meets run setting rest failing fun more taken => if taken.again = true
        then more ≠ [] ∧ inv (read ++ more) (collected ++ taken.result?.toList)
        else Q (read ++ more) (collected ++ taken.result?.toList)) :
    (Parser.collect turn).Meets run setting source failing Q := by
  refine loop (fun read collected => inv read collected.reverse) hinit
    fun {read collected rest} hfollows hinv => ?_
  refine (hturn hfollows hinv).bind fun {more taken _} _ hread => .pure ?_
  have hcollected : (taken.result?.toList ++ collected).reverse =
      collected.reverse ++ taken.result?.toList := by
    cases taken.result? <;> simp
  rw [List.append_nil]
  cases hmore : taken.again with
  | true =>
      rw [if_pos hmore] at hread
      exact ⟨hread.1, by rw [hcollected]; exact hread.2⟩
  | false =>
      rw [if_neg (by simp [hmore])] at hread
      change Q (read ++ more) (taken.result?.toList ++ collected).reverse
      rwa [hcollected]

theorem collect {turn : Parser (Turn α)} {Q : List Token → List α → Prop}
    (hinit : Q [] [])
    (hturn : ∀ {read collected rest}, setting.Follows source read rest → Q read collected →
      turn.Meets run setting rest failing fun more taken => (taken.again = true → more ≠ []) ∧
        Q (read ++ more) (collected ++ taken.result?.toList)) :
    (Parser.collect turn).Meets run setting source failing Q :=
  collectUntil Q hinit fun hfollows hinv => (hturn hfollows hinv).mono fun hread => by
    split
    next hagain => exact ⟨hread.1 hagain, hread.2⟩
    next => exact hread.2

end Meets

end Parser

end DeclFile
