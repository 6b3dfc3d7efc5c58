import DeclFile.Diagnostic.Basic
import DeclFile.Unicode.WhiteSpace
import DeclFile.Unicode.Width

/-! # Reports

A report shows each diagnostic in a way that its caller chooses. The way given here is under
the lines of source that the diagnostic is about: a span on one line is underlined; a span over
several lines is bracketed in the margin, and long stretches in its middle are left out. A span
that is not in the source is only named, whatever the way.
-/

namespace DeclFile

open Unicode

namespace Report

/-- The number of columns between two tab stops. -/
def tabWidth : Nat := 4

/-- How many lines after the first line of a span are shown. -/
def contextAfterStart : Nat := 3

/-- How many lines before the last line of a span are shown. -/
def contextBeforeEnd : Nat := 1

/-! ## The lines of a source -/

/-- A line of a source with the byte offset of its first character. It keeps its line feed. -/
structure Line where
  number : Nat
  start : Nat
  chars : List Char
deriving DecidableEq, Repr, Inhabited

/-- The number of bytes of a text. -/
def byteLength (chars : List Char) : Nat :=
  chars.foldl (fun bytes c => bytes + c.utf8Size) 0

/-- Cuts `chars` into lines, the first of which has the given number and start and begins
with `begun` in reverse. There is always a last line, which may be empty. -/
def linesFrom (number start : Nat) (begun : List Char) : List Char → List Line
  | [] => [⟨number, start, begun.reverse⟩]
  | c :: rest =>
      if c = '\n' then
        let line : Line := ⟨number, start, (c :: begun).reverse⟩
        line :: linesFrom (number + 1) (start + byteLength line.chars) [] rest
      else linesFrom number start (c :: begun) rest

/-- The lines of a source. -/
def lines (source : List Char) : List Line := linesFrom 1 0 [] source

/-- The line that a byte offset falls in: the last one that begins at or before it. -/
def lineAt : List Line → Nat → Line
  | [], _ => default
  | [line], _ => line
  | line :: next :: rest, offset =>
      if next.start ≤ offset then lineAt (next :: rest) offset else line

/-- How many characters of a text begin before a byte offset. -/
def charsBefore (offset : Nat) : List Char → Nat
  | [] => 0
  | c :: rest => if offset = 0 then 0 else charsBefore (offset - c.utf8Size) rest + 1

namespace Line

/-- The characters of a line that are shown: not those that end it. -/
def shown (line : Line) : List Char :=
  (line.chars.reverse.dropWhile fun c => c == '\n' || c == '\r' || c == '\x00').reverse

/-- The bytes of white space in front of a shown line. -/
def indent (line : Line) : Nat := byteLength (line.shown.takeWhile isWhiteSpace)

end Line

/-- A character as it is shown: its byte offset in the line and its columns. -/
structure Cell where
  offset : Nat
  char : Char
  width : Nat
deriving DecidableEq, Repr

/-- The cells of characters that begin at a byte offset and a column. -/
def cellsFrom (offset column : Nat) : List Char → List Cell
  | [] => []
  | c :: rest =>
      let width := if c = '\t' then tabWidth - column % tabWidth else width c
      ⟨offset, c, width⟩ :: cellsFrom (offset + c.utf8Size) (column + width) rest

/-- The cells of a line. -/
def cells (line : Line) : List Cell := cellsFrom 0 0 line.shown

/-- The character `c` a number of times. -/
def times (count : Nat) (c : Char) : String := String.ofList (List.replicate count c)

/-- A line as it is shown, with blanks for tabs. -/
def Line.render (line : Line) : String :=
  String.join <| (cells line).map fun cell =>
    if cell.char = '\t' then times cell.width ' ' else cell.char.toString

/-! ## Margins -/

/-- The left margin of a report whose line numbers have `digits` digits. -/
structure Margin where
  digits : Nat

namespace Margin

/-- A margin without a line number, and then `text`. -/
def plain (margin : Margin) (text : String) : String :=
  times margin.digits ' ' ++ text ++ "\n"

/-- A margin with a line number, and then `text`. -/
def numbered (margin : Margin) (number : Nat) (text : String) : String :=
  let digits := toString number
  times (margin.digits - digits.length) ' ' ++ digits ++ text ++ "\n"

end Margin

/-! ## Labels -/

/-- The part of a span that is on a line: where it begins, all of the line, or where it
ends, in bytes from the start of the line. -/
inductive Part where
  | first (start : Nat)
  | middle
  | last (stop : Nat)
deriving DecidableEq, Repr

/-- Whether the bracket of a span that begins on `line` can begin in front of its text. -/
def opensInFront (line : Line) (start : Nat) : Bool := start ≤ line.indent

/-- The gutter of a source line: the bracket of the span, which on its first line is only
there if it begins in front of the text. -/
def gutter (line : Line) : Part → String
  | .first start => if opensInFront line start then " ╭" else "  "
  | .middle | .last _ => " │"

/-- The gutter of a gap after a line. -/
def gapGutter : Part → String
  | .first _ => "  "
  | .middle | .last _ => " │"

/-- The columns of the cells that begin before a byte offset. -/
def columnsBefore (line : Line) (offset : Nat) : Nat :=
  ((cells line).filter (·.offset < offset)).foldl (fun columns cell => columns + cell.width) 0

/-- A source line with its number and gutter. -/
def sourceLine (margin : Margin) (line : Line) (gutter : String) : String :=
  margin.numbered line.number (" │" ++ gutter ++ " " ++ line.render)

/-- A source line with its part of a span, and under it the ends of the bracket. -/
def markedLine (margin : Margin) (label : String) (line : Line) (part : Part) : String :=
  let source := sourceLine margin line (gutter line part)
  match part with
  | .first start =>
      if opensInFront line start then source
      else source ++ margin.plain (" │ ╭" ++ times (columnsBefore line (start + 1)) '─' ++ "^")
  | .middle => source
  | .last stop =>
      source ++ margin.plain (" │ ╰" ++ times (columnsBefore line stop) '─' ++ "^ " ++ label)

/-- The line of carets under a span from `start` to `stop`, in bytes from the start of the
line. An empty span gets one caret, and so does one at the end of the line. -/
def carets (line : Line) (start stop : Nat) : String :=
  let stop := max stop (start + 1)
  let placeholder : Cell := ⟨byteLength line.shown, '\x00', 1⟩
  String.join <| (cells line ++ [placeholder]).map fun cell =>
    if max start cell.offset < min stop (cell.offset + cell.char.utf8Size) then
      times cell.width '^'
    else if cell.offset < stop then times cell.width ' '
    else ""

/-- The snippet of a span on one line. -/
def singleLine (margin : Margin) (label : String) (line : Line) (start stop : Nat) : String :=
  margin.plain " │" ++ sourceLine margin line "" ++
    margin.plain (" │ " ++ carets line start stop ++ " " ++ label)

/-- Whether the middle line `number` of a span is shown by itself. -/
def isContext (first last number : Nat) : Bool :=
  number ≤ first + contextAfterStart || last ≤ number + contextBeforeEnd

/-- The lines that a span is shown on, with its part on each, from the top. -/
def shownParts (lines : List Line) (start stop : Nat) : List (Line × Part) :=
  let first := lineAt lines start
  let last := lineAt lines stop
  let top := (first, Part.first (start - first.start))
  let bottom := (last, Part.last (stop - last.start))
  if last.number < first.number then [bottom, top]
  else
    let between := lines.filter fun line =>
      first.number < line.number && line.number < last.number &&
        isContext first.number last.number line.number
    top :: between.map (·, .middle) ++ [bottom]

/-- What stands between two shown lines: the line between them if there is only one, and a
gap if there are more. A line after the end of a span is not bracketed. -/
def gap (margin : Margin) (lines : List Line) (above below : Line × Part) : String :=
  if below.1.number ≤ above.1.number + 1 then ""
  else if below.1.number = above.1.number + 2 then
    let gutter := match above.2 with
      | .last _ => "  "
      | _ => " │"
    match lines.find? (·.number = above.1.number + 1) with
    | some line => sourceLine margin line gutter
    | none => ""
  else margin.plain (" ·" ++ gapGutter above.2)

/-- Shown lines with the gaps between them. -/
def withGaps (margin : Margin) (label : String) (lines : List Line) :
    List (Line × Part) → String
  | [] => ""
  | [(line, part)] => markedLine margin label line part
  | above :: below :: rest =>
      markedLine margin label above.1 above.2 ++ gap margin lines above below ++
        withGaps margin label lines (below :: rest)

/-- The snippet of a span over several lines. -/
def severalLines (margin : Margin) (label : String) (lines : List Line) (start stop : Nat) :
    String :=
  margin.plain " │  " ++ withGaps margin label lines (shownParts lines start stop)

/-! ## Whole reports -/

/-- The report of a diagnostic over the source called `name`. -/
def snippet (name source : String) (diagnostic : Diagnostic) : String :=
  let lines := lines source.toList
  let start := diagnostic.span.start.offset
  let stop := diagnostic.span.stop.offset
  let first := lineAt lines start
  let last := lineAt lines stop
  let margin : Margin := ⟨(toString (max first.number last.number)).length⟩
  let column := charsBefore (start - first.start) first.chars + 1
  let label := diagnostic.kind.label
  let body :=
    if first.number = last.number then
      singleLine margin label first (start - first.start) (stop - first.start)
    else severalLines margin label lines start stop
  s!"{diagnostic.severity.label}: {diagnostic.message}\n" ++
    margin.plain s!" ┌─ {name}:{first.number}:{column}" ++ body ++ "\n"

end Report

/-- Whether a span is one of a source text: it ends in the text, and both of its ends lie
between characters. -/
def Span.isIn (span : Span) (source : String) : Bool :=
  span.stop.offset ≤ source.utf8ByteSize &&
    String.Pos.Raw.isValid source ⟨span.start.offset⟩ &&
    String.Pos.Raw.isValid source ⟨span.stop.offset⟩

/-- The report of diagnostics over the source called `name`. What is shown of each of them is
up to `emit`, but one whose span is not in the source is only named. -/
def renderDiagnostics (name source : String) (diagnostics : List Diagnostic)
    (emit : (name source : String) → Diagnostic → String := Report.snippet) : String :=
  String.join <| diagnostics.map fun diagnostic =>
    if diagnostic.span.isIn source then emit name source diagnostic
    else s!"{diagnostic.severity.label}: {diagnostic.render}\n"

end DeclFile
