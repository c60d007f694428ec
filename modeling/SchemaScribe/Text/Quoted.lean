import SchemaScribe.Text.Basic
import SchemaScribe.Text.Digits
import SchemaScribe.Text.Printable

/-!
# Quoted text

A text between quotes as messages show it. The quotes are single, unless the text holds a single
quote and no double one. The quote in use and the backslash are escaped by a backslash, a line
feed, carriage return or tab by its letter, and any other code point that is not printable by its
number in hexadecimal. What is shown is therefore a string whatever the text holds.
-/

namespace SchemaScribe.Text

/-- The escape of a code point by its number, in the shortest of the three forms that holds
it. -/
def hexEscape (code : Nat) : List Char :=
  if code < 0x100 then '\\' :: 'x' :: hex 2 code
  else if code < 0x10000 then '\\' :: 'u' :: hex 4 code
  else '\\' :: 'U' :: hex 8 code

/-- A code point as it stands between the given quotes. -/
def escape (mark : Char) : CodePoint → List Char
  | .surrogate index => hexEscape (CodePoint.surrogate index).code
  | .scalar c =>
    if c = mark ∨ c = '\\' then ['\\', c]
    else if c = '\n' then ['\\', 'n']
    else if c = '\r' then ['\\', 'r']
    else if c = '\t' then ['\\', 't']
    else if isPrintable c then [c]
    else hexEscape c.toNat

/-- The quote that goes around a text. -/
def quoteMark (t : Text) : Char :=
  if t.contains (.scalar '\'') && !t.contains (.scalar '"') then '"' else '\''

/-- The text between quotes. -/
def quoted (t : Text) : String :=
  let mark := quoteMark t
  String.ofList (mark :: t.flatMap (escape mark) ++ [mark])

end SchemaScribe.Text
