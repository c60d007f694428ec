import SchemaScribe.Json.Basic
import SchemaScribe.Text.Digits

/-!
# Reading JSON text

`Json.parse` reads one value from a text. Blanks are space, tab, line feed and carriage return;
besides numbers there are `NaN`, `Infinity` and `-Infinity`; a number with a fraction or an
exponent is a double and any other is an integer; a repeated name keeps its first place and its
last value. A refused text is answered with the fault and the place where it was noticed.
What is well-formed but too big is refused as well: an integer of more than `maxDigits` digits, and
a list or an object below `maxNesting` others, or below as many as `Json.parseNested` is told.

The reader takes the characters one after the other and never goes back but from an exponent or
a surrogate pair that turns out to be none. Its recursion is bounded by the length of the text,
each value taking at least one character.
-/

namespace SchemaScribe.Json

/-- What is wrong with a text. -/
inductive SyntaxFault where
  | expectingValue
  | expectingName
  | expectingColon
  | expectingComma
  | extraData
  | unterminatedText
  | controlCharacter
  | invalidEscape
  | invalidCodeEscape
  | byteOrderMark
  deriving DecidableEq, Repr, Inhabited

/-- The wording of a fault. -/
def SyntaxFault.wording : SyntaxFault → String
  | .expectingValue => "Expecting value"
  | .expectingName => "Expecting property name enclosed in double quotes"
  | .expectingColon => "Expecting ':' delimiter"
  | .expectingComma => "Expecting ',' delimiter"
  | .extraData => "Extra data"
  | .unterminatedText => "Unterminated string starting at"
  | .controlCharacter => "Invalid control character at"
  | .invalidEscape => "Invalid \\escape"
  | .invalidCodeEscape => "Invalid \\uXXXX escape"
  | .byteOrderMark => "Unexpected UTF-8 BOM (decode using utf-8-sig)"

/-- A fault and its place: `offset` counts characters from 0, lines and columns count from 1. -/
structure SyntaxError where
  fault : SyntaxFault
  offset : Nat
  line : Nat
  column : Nat
  deriving DecidableEq, Repr, Inhabited

/-- The text of a syntax error. -/
def SyntaxError.message (e : SyntaxError) : String :=
  e.fault.wording ++ ": line " ++ Text.decimal e.line ++ " column " ++ Text.decimal e.column ++
    " (char " ++ Text.decimal e.offset ++ ")"

/-- The number of digits that an integer may have. -/
def maxDigits : Nat := 4300

/-- The number of lists and objects that may lie in each other. -/
def maxNesting : Nat := 988

/-- The two kinds of values that hold others. -/
inductive Container where
  | list
  | object
  deriving DecidableEq, Repr, Inhabited

/-- A limit that a text goes beyond. -/
inductive Excess where
  /-- An integer has so many digits. -/
  | digits (count : Nat)
  /-- A container lies too deep. -/
  | nesting (container : Container)
  deriving DecidableEq, Repr, Inhabited

/-- The text of an excess. -/
def Excess.message : Excess → String
  | .digits count =>
    "Exceeds the limit (" ++ Text.decimal maxDigits ++ " digits) for integer string conversion: " ++
      "value has " ++ Text.decimal count ++
      " digits; use sys.set_int_max_str_digits() to increase the limit"
  | .nesting container =>
    "maximum recursion depth exceeded while decoding a JSON " ++
      (match container with | .list => "array" | .object => "object") ++ " from a unicode string"

/-- Why a text is not read. -/
inductive ReadError where
  | malformed (e : SyntaxError)
  | excess (e : Excess)
  deriving DecidableEq, Repr, Inhabited

namespace Reader

/-- A place in the text and the characters from there on. -/
structure Cursor where
  offset : Nat
  rest : List Char

/-- Why the reader does not go on. -/
inductive Refusal where
  /-- A fault was noticed at an offset. -/
  | fault (what : SyntaxFault) (offset : Nat)
  | excess (e : Excess)

/-- The four characters that may stand between any two others of a text. -/
def isBlank (c : Char) : Bool := c = ' ' || c = '\t' || c = '\n' || c = '\r'

/-- The first place from the offset on that holds no blank. -/
def skipBlanks (offset : Nat) : List Char → Cursor
  | [] => ⟨offset, []⟩
  | c :: rest => if isBlank c then skipBlanks (offset + 1) rest else ⟨offset, c :: rest⟩

/-! ## Texts -/

/-- The character that a one-letter escape stands for. -/
def simpleEscape? : Char → Option Char
  | '"' => some '"'
  | '\\' => some '\\'
  | '/' => some '/'
  | 'b' => some '\x08'
  | 'f' => some '\x0c'
  | 'n' => some '\n'
  | 'r' => some '\r'
  | 't' => some '\t'
  | _ => none

/-- The number written by four hexadecimal digits. -/
def codeUnit? (a b c d : Char) : Option Nat := do
  let a ← Text.hexValue? a
  let b ← Text.hexValue? b
  let c ← Text.hexValue? c
  let d ← Text.hexValue? d
  return ((a * 16 + b) * 16 + c) * 16 + d

/-- Whether a code unit is the first half of a surrogate pair. -/
def isHighSurrogate (n : Nat) : Bool := 0xD800 ≤ n && n < 0xDC00

/-- Whether a code unit is the second half of a surrogate pair. -/
def isLowSurrogate (n : Nat) : Bool := 0xDC00 ≤ n && n < 0xE000

/-- The character of a surrogate pair. -/
def ofPair (high low : Nat) : Char :=
  Char.ofNat (0x10000 + (high - 0xD800) * 0x400 + (low - 0xDC00))

/-- The text of a row of code units and code points: two halves of a pair behind each other are
one character, and a half that stands alone is left as it is. -/
def joinPairs : List Nat → Text
  | [] => []
  | [n] => [.ofCode n]
  | m :: n :: rest =>
    if isHighSurrogate m && isLowSurrogate n then .scalar (ofPair m n) :: joinPairs rest
    else .ofCode m :: joinPairs (n :: rest)

/-- Reads the codes of a text up to its closing quote. `start` is the place of the opening
quote. -/
def codes (start offset : Nat) : List Char → Except Refusal (List Nat × Cursor)
  | [] => .error (.fault .unterminatedText start)
  | '"' :: rest => .ok ([], ⟨offset + 1, rest⟩)
  | '\\' :: 'u' :: a :: b :: c :: d :: rest =>
    match codeUnit? a b c d, rest.isEmpty with
    | some code, false => do
      let (tail, next) ← codes start (offset + 6) rest
      return (code :: tail, next)
    | _, _ => .error (.fault .invalidCodeEscape (offset + 1))
  | '\\' :: 'u' :: _ => .error (.fault .invalidCodeEscape (offset + 1))
  | ['\\'] => .error (.fault .unterminatedText start)
  | '\\' :: c :: rest =>
    match simpleEscape? c with
    | none => .error (.fault .invalidEscape offset)
    | some c => do
      let (tail, next) ← codes start (offset + 2) rest
      return (c.toNat :: tail, next)
  | c :: rest =>
    if c < ' ' then .error (.fault .controlCharacter offset)
    else do
      let (tail, next) ← codes start (offset + 1) rest
      return (c.toNat :: tail, next)

/-- Reads a text up to its closing quote. `start` is the place of the opening quote. -/
def text (start : Nat) (rest : List Char) : Except Refusal (Text × Cursor) := do
  let (codes, next) ← codes start (start + 1) rest
  return (joinPairs codes, next)

/-! ## Numbers -/

/-- The parts of a numeral. -/
structure Numeral where
  negative : Bool
  whole : List Char
  fraction : Option (List Char)
  /-- The sign of the exponent, if it is written, and its digits. -/
  exponent : Option (Option Char × List Char)

namespace Numeral

/-- The number of characters of a numeral. -/
def length (n : Numeral) : Nat :=
  (if n.negative then 1 else 0) + n.whole.length +
    n.fraction.elim 0 (fun digits => 1 + digits.length) +
    n.exponent.elim 0 (fun (sign, digits) => 1 + sign.toList.length + digits.length)

/-- Whether a numeral stands for an integer. -/
def isInteger (n : Numeral) : Bool := n.fraction.isNone && n.exponent.isNone

/-- The value of a numeral. -/
def value (n : Numeral) : Json :=
  if n.isInteger then
    let m : Int := Text.ofDigits n.whole
    .int (if n.negative then -m else m)
  else
    let places := n.fraction.getD []
    let power : Int := match n.exponent with
      | none => 0
      | some (some '-', digits) => -(Text.ofDigits digits : Int)
      | some (_, digits) => Text.ofDigits digits
    .float (.ofDecimal n.negative (Text.ofDigits (n.whole ++ places)) (power - places.length))

end Numeral

/-- The digits before the decimal point, and what follows them: a zero alone, or a row that starts
with no zero. -/
def whole? : List Char → Option (List Char × List Char)
  | [] => none
  | d :: rest =>
    if d = '0' then some (['0'], rest)
    else if Text.isDigit d then
      some (d :: rest.takeWhile Text.isDigit, rest.dropWhile Text.isDigit)
    else none

/-- The digits after a decimal point, and what follows them. -/
def fraction? : List Char → Option (List Char × List Char)
  | '.' :: d :: rest =>
    if Text.isDigit d then
      some (d :: rest.takeWhile Text.isDigit, rest.dropWhile Text.isDigit)
    else none
  | _ => none

/-- The sign and the digits of an exponent, and what follows them. -/
def exponent? : List Char → Option ((Option Char × List Char) × List Char)
  | e :: rest =>
    if e = 'e' || e = 'E' then
      let (sign, rest) := match rest with
        | '-' :: rest => (some '-', rest)
        | '+' :: rest => (some '+', rest)
        | rest => (none, rest)
      match rest.takeWhile Text.isDigit with
      | [] => none
      | digits => some ((sign, digits), rest.dropWhile Text.isDigit)
    else none
  | [] => none

/-- Takes a numeral apart whose sign has been read, and what follows it. -/
def numeral? (negative : Bool) (chars : List Char) : Option (Numeral × List Char) := do
  let (whole, rest) ← whole? chars
  let (fraction, rest) := match fraction? rest with
    | some (digits, rest) => (some digits, rest)
    | none => (none, rest)
  let (exponent, rest) := match exponent? rest with
    | some (part, rest) => (some part, rest)
    | none => (none, rest)
  return (⟨negative, whole, fraction, exponent⟩, rest)

/-- The value of a word or a number at the cursor. -/
def scalar (c : Cursor) : Except Refusal (Json × Cursor) :=
  match c.rest with
  | 'n' :: 'u' :: 'l' :: 'l' :: rest => .ok (.null, ⟨c.offset + 4, rest⟩)
  | 't' :: 'r' :: 'u' :: 'e' :: rest => .ok (.bool true, ⟨c.offset + 4, rest⟩)
  | 'f' :: 'a' :: 'l' :: 's' :: 'e' :: rest => .ok (.bool false, ⟨c.offset + 5, rest⟩)
  | 'N' :: 'a' :: 'N' :: rest => .ok (.float .nan, ⟨c.offset + 3, rest⟩)
  | 'I' :: 'n' :: 'f' :: 'i' :: 'n' :: 'i' :: 't' :: 'y' :: rest =>
    .ok (.float (.infinite false), ⟨c.offset + 8, rest⟩)
  | '-' :: 'I' :: 'n' :: 'f' :: 'i' :: 'n' :: 'i' :: 't' :: 'y' :: rest =>
    .ok (.float (.infinite true), ⟨c.offset + 9, rest⟩)
  | chars =>
    let found := match chars with
      | '-' :: digits => numeral? true digits
      | digits => numeral? false digits
    match found with
    | none => .error (.fault .expectingValue c.offset)
    | some (n, rest) =>
      if n.isInteger && maxDigits < n.whole.length then .error (.excess (.digits n.whole.length))
      else .ok (n.value, ⟨c.offset + n.length, rest⟩)

/-! ## Values -/

mutual

/-- Reads the value at the cursor, in which containers may be nested to so many `levels`. -/
def value : (fuel : Nat) → (levels : Nat) → Cursor → Except Refusal (Json × Cursor)
  | 0, _, c => .error (.fault .expectingValue c.offset)
  | fuel + 1, levels, c =>
    match c.rest, levels with
    | '"' :: rest, _ => do
      let (s, next) ← text c.offset rest
      return (.text s, next)
    | '\x7b' :: _, 0 => .error (.excess (.nesting .object))
    | '\x7b' :: rest, levels + 1 =>
      let first := skipBlanks (c.offset + 1) rest
      match first.rest with
      | '\x7d' :: rest => .ok (.object [], ⟨first.offset + 1, rest⟩)
      | _ => members fuel levels [] first
    | '[' :: _, 0 => .error (.excess (.nesting .list))
    | '[' :: rest, levels + 1 =>
      let first := skipBlanks (c.offset + 1) rest
      match first.rest with
      | ']' :: rest => .ok (.list [], ⟨first.offset + 1, rest⟩)
      | _ => do
        let (elements, next) ← elements fuel levels first
        return (.list elements, next)
    | _, _ => scalar c

/-- Reads the elements of a list from the cursor to the closing bracket. -/
def elements : (fuel : Nat) → (levels : Nat) → Cursor → Except Refusal (List Json × Cursor)
  | 0, _, c => .error (.fault .expectingValue c.offset)
  | fuel + 1, levels, c => do
    let (x, next) ← value fuel levels c
    let next := skipBlanks next.offset next.rest
    match next.rest with
    | ']' :: rest => return ([x], ⟨next.offset + 1, rest⟩)
    | ',' :: rest =>
      let (tail, next) ← elements fuel levels (skipBlanks (next.offset + 1) rest)
      return (x :: tail, next)
    | _ => .error (.fault .expectingComma next.offset)

/-- Reads the members of an object from the cursor to the closing brace, after those read
before. -/
def members : (fuel : Nat) → (levels : Nat) → Entries Json → Cursor →
    Except Refusal (Json × Cursor)
  | 0, _, _, c => .error (.fault .expectingName c.offset)
  | fuel + 1, levels, before, c =>
    match c.rest with
    | '"' :: rest => do
      let (name, next) ← text c.offset rest
      let next := skipBlanks next.offset next.rest
      match next.rest with
      | ':' :: rest =>
        let (x, next) ← value fuel levels (skipBlanks (next.offset + 1) rest)
        let all := before.put name x
        let next := skipBlanks next.offset next.rest
        match next.rest with
        | '\x7d' :: rest => return (.object all, ⟨next.offset + 1, rest⟩)
        | ',' :: rest => members fuel levels all (skipBlanks (next.offset + 1) rest)
        | _ => .error (.fault .expectingComma next.offset)
      | _ => .error (.fault .expectingColon next.offset)
    | _ => .error (.fault .expectingName c.offset)

end

/-- Reads a whole text: a value with nothing but blanks around it. -/
def document (levels : Nat) (chars : List Char) : Except Refusal Json :=
  match chars with
  | '\uFEFF' :: _ => .error (.fault .byteOrderMark 0)
  | _ => do
    let (x, next) ← value (2 * chars.length + 2) levels (skipBlanks 0 chars)
    let next := skipBlanks next.offset next.rest
    match next.rest with
    | [] => return x
    | _ => .error (.fault .extraData next.offset)

/-- The number of the line and of the column at an offset. -/
def lineAndColumn (chars : List Char) (offset : Nat) : Nat × Nat :=
  let before := chars.take offset
  (before.count '\n' + 1, (before.reverse.takeWhile (· ≠ '\n')).length + 1)

/-- A refusal with the line and the column of its fault. -/
def Refusal.located (chars : List Char) : Refusal → ReadError
  | .fault what offset =>
    let (line, column) := lineAndColumn chars offset
    .malformed ⟨what, offset, line, column⟩
  | .excess e => .excess e

end Reader

/-- Reads a value, with containers nested to so many levels, from a text. -/
def parseNested (levels : Nat) (s : String) : Except ReadError Json :=
  (Reader.document levels s.toList).mapError (Reader.Refusal.located s.toList)

/-- Reads a value from a text. -/
def parse (s : String) : Except ReadError Json := parseNested maxNesting s

end SchemaScribe.Json
