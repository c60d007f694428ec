import SchemaScribe.Binary64.Display
import SchemaScribe.Json.Basic
import SchemaScribe.Text.Digits
import SchemaScribe.Text.Quoted

/-!
# The text of a value

`Json.display` is how messages show a value, and `Json.toText` how a value is inserted into
generated text: the same, but that a text is inserted as it is.
-/

namespace SchemaScribe.Json

mutual

/-- A value as messages show it. -/
def display : Json → String
  | .null => "None"
  | .bool true => "True"
  | .bool false => "False"
  | .int n => Text.decimal n
  | .float x => x.display
  | .text t => Text.quoted t
  | .list elements => "[" ++ displayElements elements ++ "]"
  | .object members => "\x7b" ++ displayMembers members ++ "\x7d"

/-- The elements of a list, separated by commas. -/
def displayElements : List Json → String
  | [] => ""
  | [x] => x.display
  | x :: y :: rest => x.display ++ ", " ++ displayElements (y :: rest)

/-- The members of an object, separated by commas. -/
def displayMembers : List (Text × Json) → String
  | [] => ""
  | [(k, x)] => Text.quoted k ++ ": " ++ x.display
  | (k, x) :: y :: rest =>
    Text.quoted k ++ ": " ++ x.display ++ ", " ++ displayMembers (y :: rest)

end

/-- A value as it is inserted into generated text. -/
def toText : Json → Text
  | .text t => t
  | x => x.display

end SchemaScribe.Json
