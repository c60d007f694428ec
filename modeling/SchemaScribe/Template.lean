import SchemaScribe.Json.Display
import SchemaScribe.Text.DecimalDigit

/-!
# Brace templates

A template is a text with placeholders: a name in braces stands for a value, and a brace is
written twice to stand for itself. `Template.pieces` takes a template apart and `Template.format`
puts it together again with the values in place.

The pieces are filled in from left to right, so the first piece that cannot be filled in decides
the error; the text of a value is never looked at again, whatever braces it holds.

All that stands between the braces is the name. Templates have no conversions, format
specifications, attributes or indices: a name with one of the marks `!`, `:`, `.` and `[` in it is
looked up as it stands, so `Template.format` is meant for templates whose names hold none of them.

The texts of a value of any shape are filled in by `fillTexts`, in whatever way each text is, and as
templates by `formatValue`.
-/

namespace SchemaScribe.Template

/-- A piece of a template. -/
inductive Piece where
  | literal (x : CodePoint)
  /-- The name between the braces, taken as it stands. -/
  | placeholder (name : Text)
  /-- A closing brace that closes nothing and is not written twice. -/
  | strayClose
  /-- An opening brace with nothing after it. -/
  | strayOpen
  /-- A placeholder that is never closed. -/
  | unclosed
  /-- An opening brace inside a placeholder. -/
  | nested
  deriving DecidableEq, Repr, Inhabited

/-- Where a reader of a template stands. -/
inductive Place where
  /-- In literal text. -/
  | plain
  /-- Behind an opening brace. -/
  | opened
  /-- Behind a closing brace that closes no placeholder. -/
  | closed
  /-- In a placeholder, behind the given part of its name in reverse. -/
  | named (part : Text)

/-- The brace that opens a placeholder. -/
def openingBrace : CodePoint := .scalar '\x7b'

/-- The brace that closes a placeholder. -/
def closingBrace : CodePoint := .scalar '\x7d'

/-- The pieces of the text from a place on. What cannot be taken apart is the last piece. -/
def pieces : Place → Text → List Piece
  | .plain, [] => []
  | .opened, [] => [.strayOpen]
  | .closed, [] => [.strayClose]
  | .named _, [] => [.unclosed]
  | .plain, x :: rest =>
    if x = openingBrace then pieces .opened rest
    else if x = closingBrace then pieces .closed rest
    else .literal x :: pieces .plain rest
  | .opened, x :: rest =>
    if x = openingBrace then .literal x :: pieces .plain rest
    else if x = closingBrace then .placeholder [] :: pieces .plain rest
    else pieces (.named [x]) rest
  | .closed, x :: rest =>
    if x = closingBrace then .literal x :: pieces .plain rest else [.strayClose]
  | .named part, x :: rest =>
    if x = closingBrace then .placeholder part.reverse :: pieces .plain rest
    else if x = openingBrace then [.nested]
    else pieces (.named (x :: part)) rest

/-- Why a template cannot be filled in. -/
inductive Fault where
  | strayClose
  | strayOpen
  | unclosed
  | nested
  /-- No value has the name of the placeholder. -/
  | unknownName (name : Text)
  /-- The placeholder names its value by a position, and there are no such values. -/
  | position (index : Nat)
  /-- The placeholder names a position beyond all that can be named. -/
  | tooManyDigits
  deriving DecidableEq, Repr, Inhabited

/-- The text of a fault. -/
def Fault.message : Fault → Text
  | .strayClose => "Single '\x7d' encountered in format string"
  | .strayOpen => "Single '\x7b' encountered in format string"
  | .unclosed => "expected '\x7d' before end of string"
  | .nested => "unexpected '\x7b' in field name"
  | .unknownName name => name
  | .position index =>
    "Replacement index " ++ Text.decimal index ++ " out of range for positional args tuple"
  | .tooManyDigits => "Too many decimal digits in format string"

/-- The greatest position that a placeholder can name. -/
def maxPosition : Nat := 9223372036854775807

/-- The position that a name stands for, if it is made of decimal digits only; the digits before
it stand for `n`. -/
def positionFrom (n : Nat) : Text → Except Fault (Option Nat)
  | [] => .ok (some n)
  | x :: rest =>
    match x.char?.bind Text.decimalDigit? with
    | none => .ok none
    | some digit =>
      if maxPosition < 10 * n + digit then .error .tooManyDigits
      else positionFrom (10 * n + digit) rest

/-- The text that a placeholder stands for. No name, or a number for a name, is a position. -/
def valueOf (values : Entries Json) (name : Text) : Except Fault Text := do
  match ← positionFrom 0 name with
  | some index => .error (.position index)
  | none =>
    match values.get? name with
    | some x => return x.toText
    | none => .error (.unknownName name)

/-- The text that a piece stands for. -/
def Piece.fill (values : Entries Json) : Piece → Except Fault Text
  | .literal x => .ok [x]
  | .placeholder name => valueOf values name
  | .strayClose => .error .strayClose
  | .strayOpen => .error .strayOpen
  | .unclosed => .error .unclosed
  | .nested => .error .nested

/-- The texts of the pieces in a row, or the fault of the first that has none. -/
def fillAll (values : Entries Json) : List Piece → Except Fault Text
  | [] => .ok []
  | piece :: rest => do
    let t ← piece.fill values
    let tail ← fillAll values rest
    return t ++ tail

/-- A template with the values in place of its placeholders. The names in it are taken to be plain,
without conversions, format specifications, attributes and indices. -/
def format (values : Entries Json) (template : Text) : Except Fault Text :=
  fillAll values (pieces .plain template)

/-! ## Texts inside values -/

section

variable {ε : Type}

mutual

/-- Fills in every text of a value, at any depth, in the given way; the names of members are no
texts of it. -/
def fillTexts (fill : Text → Except ε Text) : Json → Except ε Json
  | .text t => Json.text <$> fill t
  | .list elements => Json.list <$> fillElements fill elements
  | .object members => Json.object <$> fillMembers fill members
  | x => .ok x

/-- Fills in the elements of a list, first to last. -/
def fillElements (fill : Text → Except ε Text) : List Json → Except ε (List Json)
  | [] => .ok []
  | x :: rest => do
    let y ← fillTexts fill x
    let tail ← fillElements fill rest
    return y :: tail

/-- Fills in the members of an object, first to last. -/
def fillMembers (fill : Text → Except ε Text) :
    List (Text × Json) → Except ε (List (Text × Json))
  | [] => .ok []
  | (k, x) :: rest => do
    let y ← fillTexts fill x
    let tail ← fillMembers fill rest
    return (k, y) :: tail

end

end

/-- Fills in every text of a value as a template. -/
def formatValue (values : Entries Json) : Json → Except Fault Json :=
  fillTexts (format values)

end SchemaScribe.Template
