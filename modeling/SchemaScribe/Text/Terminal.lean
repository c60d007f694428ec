import SchemaScribe.Text.Basic
import SchemaScribe.Text.Digits

/-!
# Texts for a terminal

What a terminal is sent. `Text.withoutStyles` takes the control sequences out of a text that set
colours and move the cursor, and `Text.shown` writes half of a surrogate pair, which a terminal
cannot be sent, by its code.
-/

namespace SchemaScribe.Text

/-- The character that starts a control sequence. -/
def escapeCharacter : CodePoint := .scalar '\x1b'

/-- Whether a character is a parameter of a control sequence: a digit or one of `:;<=>?`. -/
def isParameter (c : Char) : Bool := '0' ≤ c && c ≤ '?'

/-- Whether a character stands between the parameters of a control sequence and its last
character: a space or one of the signs before the digits. -/
def isIntermediate (c : Char) : Bool := ' ' ≤ c && c ≤ '/'

/-- Whether a character is the last of a control sequence. -/
def isFinal (c : Char) : Bool := '@' ≤ c && c ≤ '~'

/-- Whether what is `held`, the start of a control sequence in reverse, goes on with the code
point: an opening bracket comes behind the first character, then parameters, then intermediate
characters. -/
def goesOn (held : Text) (x : CodePoint) : Bool :=
  match held with
  | [] => x == escapeCharacter
  | [_] => x == .scalar '['
  | last :: _ =>
    x.satisfies isIntermediate || (x.satisfies isParameter && !last.satisfies isIntermediate)

/-- Whether what is `held`, the start of a control sequence in reverse, ends with the code point:
the first character that it cannot go on with has to be one of the last characters. -/
def endsWith (held : Text) (x : CodePoint) : Bool :=
  2 ≤ held.length && x.satisfies isFinal

/-- The text without its control sequences; `held` is the start of one, in reverse, that is given
back when it turns out to be none. -/
def withoutStylesFrom (held : Text) : Text → Text
  | [] => held.reverse
  | x :: rest =>
    if goesOn held x then withoutStylesFrom (x :: held) rest
    else if endsWith held x then withoutStylesFrom [] rest
    else held.reverse ++
      if goesOn [] x then withoutStylesFrom [x] rest else x :: withoutStylesFrom [] rest

/-- The text without its control sequences. -/
def withoutStyles (t : Text) : Text := withoutStylesFrom [] t

/-- A text with each half of a surrogate pair written by its code. -/
def shown (t : Text) : String :=
  String.ofList (t.flatMap fun
    | .scalar c => [c]
    | .surrogate index => '\\' :: 'u' :: hex 4 (CodePoint.surrogate index).code)

end SchemaScribe.Text
