/-!
# Lines

Two views of line ends: `Text.unifyLineEnds` is how a text file is read, and `Text.lines` how a
message is laid out on a terminal.
-/

namespace SchemaScribe.Text

/-- Reads each of the line ends CR LF, CR and LF as LF. -/
def unifyLineEnds : List Char → List Char
  | '\r' :: '\n' :: rest => '\n' :: unifyLineEnds rest
  | '\r' :: rest => '\n' :: unifyLineEnds rest
  | c :: rest => c :: unifyLineEnds rest
  | [] => []

/-- Whether a character ends a line: the line and page feeds, the carriage return, the
information separators, the next-line control and the two Unicode separators. -/
def endsLine (c : Char) : Bool :=
  c ∈ ['\n', '\x0b', '\x0c', '\r', '\x1c', '\x1d', '\x1e', '\u0085', '\u2028', '\u2029']

/-- The lines of a text, `current` holding the line at hand in reverse. CR LF ends one line, and
a line end at the end of the text starts no further line. -/
def linesFrom (current : List Char) : List Char → List (List Char)
  | [] => if current.isEmpty then [] else [current.reverse]
  | '\r' :: '\n' :: rest => current.reverse :: linesFrom [] rest
  | c :: rest =>
    if endsLine c then current.reverse :: linesFrom [] rest else linesFrom (c :: current) rest

/-- The lines of a text without their ends. -/
def lines (s : String) : List String := (linesFrom [] s.toList).map String.ofList

end SchemaScribe.Text
