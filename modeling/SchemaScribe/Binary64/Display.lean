import SchemaScribe.Binary64.Shortest
import SchemaScribe.Text.Digits

/-!
# How a number is written

`NumeralStyle` holds the choices a decimal format makes, and `NumeralStyle.write` lays out a
decimal by them; `Binary64.display` writes a double by its shortest decimal in the one style this
library uses.
-/

namespace SchemaScribe

/-- The choices of a decimal format. -/
structure NumeralStyle where
  /-- The least exponent of the leading digit that is written positionally. -/
  positionalFrom : Int
  /-- The exponent of the leading digit from which on an exponent is written. -/
  positionalBelow : Int
  /-- Written after a positional integer. -/
  integerMark : String
  /-- Written before the exponent. -/
  exponentMark : String
  /-- The least number of digits of a written exponent. -/
  exponentWidth : Nat
  nan : String
  infinity : String

/-- A number is positional from `0.0001` up to `10 ^ 16`, an integer keeps its `.0`, and an
exponent has a sign and two digits or more. -/
def Binary64.style : NumeralStyle where
  positionalFrom := -4
  positionalBelow := 16
  integerMark := ".0"
  exponentMark := "e"
  exponentWidth := 2
  nan := "nan"
  infinity := "inf"

namespace NumeralStyle

/-- The digits of a decimal, its leading digit standing at `10 ^ top`, in positional form. -/
def positional (style : NumeralStyle) (digits : List Char) (top : Int) : String :=
  if top < 0 then
    String.ofList ('0' :: '.' :: List.replicate (-top - 1).toNat '0' ++ digits)
  else
    let whole := top.toNat + 1
    if digits.length ≤ whole then
      String.ofList (digits ++ List.replicate (whole - digits.length) '0') ++ style.integerMark
    else String.ofList (digits.take whole ++ '.' :: digits.drop whole)

/-- The digits of a decimal with one digit before the point and an exponent. -/
def scientific (style : NumeralStyle) (digits : List Char) (top : Int) : String :=
  let mantissa := match digits with
    | [] => []
    | [d] => [d]
    | d :: rest => d :: '.' :: rest
  let sign := if top < 0 then "-" else "+"
  String.ofList mantissa ++ style.exponentMark ++ sign ++
    String.ofList (Text.padded style.exponentWidth (Nat.toDigits 10 top.natAbs))

/-- Writes a nonnegative decimal. -/
def write (style : NumeralStyle) (x : Decimal) : String :=
  let digits := Nat.toDigits 10 x.digits
  let top := if x.digits = 0 then 0 else x.exponent + digits.length - 1
  if style.positionalFrom ≤ top ∧ top < style.positionalBelow then style.positional digits top
  else style.scientific digits top

end NumeralStyle

/-- The text of a double: the fewest digits that read back. -/
def Binary64.display : Binary64 → String
  | .nan => style.nan
  | .infinite negative => (if negative then "-" else "") ++ style.infinity
  | .finite negative m q =>
    (if negative then "-" else "") ++
      style.write (if m = 0 then ⟨0, 0⟩ else Decimal.shortest m q)

end SchemaScribe
