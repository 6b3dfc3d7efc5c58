/-! # Positions and spans in a source text

A position counts bytes from zero for tools and lines and columns from one for people.
A span is a half-open stretch of one source. Positions move forward character by
character, and only a line feed starts a new line.
-/

namespace DeclFile

/-- The number of the source text that a span lies in. -/
structure SourceId where
  number : Nat
deriving DecidableEq, Repr, Inhabited

/-- Sources are written `#0`, `#1`, .... -/
def SourceId.render (source : SourceId) : String :=
  s!"#{source.number}"

/-- A place between two characters: the byte offset, the line and the column, where the
column counts characters. Lines and columns are reported as numbers of 32 bits. Counting goes
on beyond these here, and the first text that needs it has `2 ^ 32 - 1` characters. -/
structure Pos where
  offset : Nat
  line : Nat
  column : Nat
deriving DecidableEq, Repr, Inhabited

namespace Pos

/-- The beginning of a text. -/
def start : Pos := ⟨0, 1, 1⟩

/-- The place just after the character `c`. -/
def after (pos : Pos) (c : Char) : Pos :=
  if c = '\n' then ⟨pos.offset + c.utf8Size, pos.line + 1, 1⟩
  else ⟨pos.offset + c.utf8Size, pos.line, pos.column + 1⟩

/-- The place after all of `chars`. -/
def through (pos : Pos) (chars : List Char) : Pos :=
  chars.foldl after pos

@[simp] theorem through_nil (pos : Pos) : pos.through [] = pos := rfl

@[simp] theorem through_cons (pos : Pos) (c : Char) (chars : List Char) :
    pos.through (c :: chars) = (pos.after c).through chars := rfl

theorem through_append (pos : Pos) (first second : List Char) :
    pos.through (first ++ second) = (pos.through first).through second :=
  List.foldl_append

/-- Positions are ordered by offset, then line, then column. -/
def isBefore (a b : Pos) : Bool :=
  a.offset < b.offset ||
    (a.offset == b.offset && (a.line < b.line || (a.line == b.line && a.column < b.column)))

/-- The earlier of two positions. -/
def earlier (a b : Pos) : Pos := if b.isBefore a then b else a

/-- The later of two positions. -/
def later (a b : Pos) : Pos := if a.isBefore b then b else a

/-- People read a position as `line:column`. -/
def render (pos : Pos) : String :=
  s!"{pos.line}:{pos.column}"

end Pos

/-- The stretch of a source from `start` up to but not including `stop`. -/
structure Span where
  source : SourceId
  start : Pos
  stop : Pos
deriving DecidableEq, Repr

namespace Span

/-- The empty span at `pos`. -/
def point (source : SourceId) (pos : Pos) : Span := ⟨source, pos, pos⟩

instance : Inhabited Span := ⟨point ⟨0⟩ .start⟩

/-- The smallest span that covers both; it keeps the first one's source. -/
def cover (a b : Span) : Span :=
  ⟨a.source, a.start.earlier b.start, a.stop.later b.stop⟩

/-- The span of `source` from `start` to `stop`, or the empty one at `start` where `stop` stands
before it. -/
def between (source : SourceId) (start stop : Pos) : Span :=
  ⟨source, start, if start.offset ≤ stop.offset then stop else start⟩

theorem start_le_between (source : SourceId) (start stop : Pos) :
    start.offset ≤ (between source start stop).stop.offset := by
  unfold between
  split <;> simp_all

theorem stop_le_between (source : SourceId) (start stop : Pos) :
    stop.offset ≤ (between source start stop).stop.offset := by
  unfold between
  split
  · exact Nat.le_refl _
  next h => exact Nat.le_of_not_le h

/-- Whether `b` lies within `a`, judged by byte offsets in one source. -/
def contains (a b : Span) : Bool :=
  a.source == b.source && a.start.offset ≤ b.start.offset && b.stop.offset ≤ a.stop.offset

/-- A span without characters. -/
def isEmpty (span : Span) : Bool :=
  span.stop.offset ≤ span.start.offset

/-- People read a span as its two positions. -/
def render (span : Span) : String :=
  s!"{span.start.render}-{span.stop.render}"

end Span

end DeclFile
