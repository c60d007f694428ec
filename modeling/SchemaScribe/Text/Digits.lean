/-!
# Numerals

Whole numbers as text, in decimal and in hexadecimal.
-/

namespace SchemaScribe.Text

/-- Zeros in front of the digits up to the given width. -/
def padded (width : Nat) (digits : List Char) : List Char :=
  List.replicate (width - digits.length) '0' ++ digits

/-- The lower-case hexadecimal digits of `n`, at least `width` of them. -/
def hex (width n : Nat) : List Char := padded width (Nat.toDigits 16 n)

/-- A whole number in decimal, with a sign when it is negative. -/
def decimal (n : Int) : String :=
  String.ofList ((if n < 0 then ['-'] else []) ++ Nat.toDigits 10 n.natAbs)

/-- Whether the character is one of the ten ASCII digits. -/
def isDigit (c : Char) : Bool := '0' ≤ c && c ≤ '9'

/-- The number that a decimal digit stands for. -/
def digitValue (c : Char) : Nat := c.toNat - '0'.toNat

/-- The number that a row of decimal digits stands for. -/
def ofDigits (digits : List Char) : Nat :=
  digits.foldl (fun n c => 10 * n + digitValue c) 0

/-- The number that a hexadecimal digit of either case stands for. -/
def hexValue? (c : Char) : Option Nat :=
  if isDigit c then some (digitValue c)
  else if 'a' ≤ c ∧ c ≤ 'f' then some (c.toNat - 'a'.toNat + 10)
  else if 'A' ≤ c ∧ c ≤ 'F' then some (c.toNat - 'A'.toNat + 10)
  else none

end SchemaScribe.Text
