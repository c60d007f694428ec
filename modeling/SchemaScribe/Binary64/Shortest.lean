import SchemaScribe.Binary64.Basic

/-!
# The fewest digits that read back

A finite nonzero double is the only double in an interval around it: the decimals in that
interval are the ones that read back as this double. `Decimal.shortest` finds a decimal of the
interval with the fewest digits, and of those one nearest to the double.

For each number of digits only the two neighbours of the double on the decimal grid are tried: if
any point of the grid lies in the interval, one of these two does.
-/

namespace SchemaScribe

/-- The decimal number `digits · 10 ^ exponent`. -/
structure Decimal where
  digits : Nat
  exponent : Int
  deriving DecidableEq, Repr, Inhabited

namespace Decimal

/-- The number of decimal digits of `n`; zero has none. -/
def width (n : Nat) : Nat :=
  if n = 0 then 0 else (Nat.toDigits 10 n).length

/-- Drops at most `fuel` trailing zeros of the digits. -/
def dropZeros : (fuel : Nat) → Decimal → Decimal
  | 0, x => x
  | fuel + 1, x =>
    if x.digits ≠ 0 ∧ x.digits % 10 = 0 then dropZeros fuel ⟨x.digits / 10, x.exponent + 1⟩ else x

/-- The same number with no trailing zero among its digits. -/
def normal (x : Decimal) : Decimal := dropZeros (width x.digits) x

/-! ## The interval of a double -/

/-- The numbers that read back as the double `m · 2 ^ q`, in units of `2 ^ (q - 2)`. -/
structure Interval where
  lower : Nat
  centre : Nat
  upper : Nat
  /-- Whether the two ends read back as the double: they do when the significand is even. -/
  closed : Bool

/-- The distance to the double below is halved at a power of two, where the exponent steps. -/
def Interval.of (m : Nat) (q : Int) : Interval where
  lower := if m = powerOfTwo 52 ∧ Binary64.minExponent < q then 4 * m - 1 else 4 * m - 2
  centre := 4 * m
  upper := 4 * m + 2
  closed := m % 2 == 0

/-- A pair of factors `(p, r)` such that `c · 10 ^ g` compares with `x · 2 ^ (q - 2)` as `c * p`
does with `x * r`. -/
def factors (g q : Int) : Nat × Nat :=
  (powerOfTen g.toNat * powerOfTwo (2 - q).toNat,
    powerOfTwo (q - 2).toNat * powerOfTen (-g).toNat)

/-- The decimal exponent of the leading digit of `m · 2 ^ q`. -/
def leadingExponent (m : Nat) (q : Int) : Int :=
  let n := m * powerOfTwo q.toNat
  let d := powerOfTwo (-q).toNat
  if d ≤ n then (width (n / d) : Int) - 1 else -(width ((d + n - 1) / n - 1) : Int)

/-- Whether `c · 10 ^ g` lies in the interval. -/
def Interval.holds (i : Interval) (p r c : Nat) : Bool :=
  if i.closed then i.lower * r ≤ c * p && c * p ≤ i.upper * r
  else i.lower * r < c * p && c * p < i.upper * r

/-- The point of the grid of step `10 ^ g` in the interval of `m · 2 ^ q` that is nearest to the
double, the even one when two are equally near. -/
def candidate? (m : Nat) (q g : Int) : Option Decimal :=
  let i := Interval.of m q
  let (p, r) := factors g q
  let below := i.centre * r / p
  let above := below + 1
  match i.holds p r below, i.holds p r above with
  | true, true =>
    let left := i.centre * r - below * p
    let right := above * p - i.centre * r
    if left < right || (left == right && below % 2 == 0) then some ⟨below, g⟩ else some ⟨above, g⟩
  | true, false => some ⟨below, g⟩
  | false, true => some ⟨above, g⟩
  | false, false => none

/-- The first grid that meets the interval, of those with `count - fuel`, … , `count` digits. -/
def search (m : Nat) (q top : Int) (count : Nat) : (fuel : Nat) → Option Decimal
  | 0 => none
  | fuel + 1 =>
    match candidate? m q (top - (count - fuel : Nat) + 1) with
    | some x => some x
    | none => search m q top count fuel

/-- A decimal with the fewest digits that reads back as `m · 2 ^ q`, for `m ≠ 0`. Seventeen
digits are always enough. -/
def shortest (m : Nat) (q : Int) : Decimal :=
  ((search m q (leadingExponent m q) 17 17).getD ⟨0, 0⟩).normal

end Decimal

end SchemaScribe
