/-!
# Double-precision numbers

The values of the IEEE 754 format `binary64`, given by what they denote and not by their bits:
a finite number is `± m · 2 ^ q`. `Binary64.ofDecimal` rounds a decimal `n · 10 ^ e` to the
nearest of them, a half to the even significand.

Everything here is exact arithmetic on natural numbers, so all of it is visible to proofs.
-/

namespace SchemaScribe

/-- A double-precision number. -/
inductive Binary64 where
  /-- The result of an undefined operation. -/
  | nan
  /-- `+∞`, or `-∞` when negative. -/
  | infinite (negative : Bool)
  /-- The number `± significand · 2 ^ exponent`. The two zeros differ in sign. -/
  | finite (negative : Bool) (significand : Nat) (exponent : Int)
  deriving DecidableEq, Repr, Inhabited

/-- The power of two with the given exponent. -/
def powerOfTwo (exponent : Nat) : Nat := Nat.pow 2 exponent

/-- The power of ten with the given exponent. -/
def powerOfTen (exponent : Nat) : Nat := Nat.pow 10 exponent

namespace Binary64

/-- The least exponent of the format: every finite number is a multiple of `2 ^ minExponent`. -/
def minExponent : Int := -1074

/-- The greatest exponent of the format. -/
def maxExponent : Int := 971

/-- Only the two zeros are zero. -/
def isZero : Binary64 → Bool
  | .finite _ m _ => m == 0
  | _ => false

/-! ## Rounding -/

/-- The integer nearest to `n / d`, a half going to the even neighbour. -/
def roundDiv (n d : Nat) : Nat :=
  let quotient := n / d
  let twice := 2 * (n % d)
  if d < twice || (twice == d && quotient % 2 == 1) then quotient + 1 else quotient

/-- The number `n / d · 2 ^ (-q)` as a fraction of natural numbers. -/
def scaleDown (n d : Nat) (q : Int) : Nat × Nat :=
  (n * powerOfTwo (-q).toNat, d * powerOfTwo q.toNat)

/-- The exponent at which `n / d` has a significand of 53 bits, or the least exponent of the
format when it has fewer. -/
def exponentOf (n d : Nat) : Int :=
  let estimate : Int := (Nat.log2 n : Int) - (Nat.log2 d : Int) - 53
  let (n', d') := scaleDown n d estimate
  max minExponent (if n' / d' < powerOfTwo 53 then estimate else estimate + 1)

/-- The double nearest to `± n / d`, infinite beyond the range of the format. -/
def ofRatio (negative : Bool) (n d : Nat) : Binary64 :=
  if n = 0 then .finite negative 0 minExponent
  else
    let q := exponentOf n d
    let (n', d') := scaleDown n d q
    let m := roundDiv n' d'
    let (m, q) := if m = powerOfTwo 53 then (powerOfTwo 52, q + 1) else (m, q)
    if maxExponent < q then .infinite negative else .finite negative m q

/-- Above this power of ten every number is infinite, and below its inverse every number is
zero. -/
def decimalRange : Int := 400

/-- The double nearest to `± digits · 10 ^ exponent`. A number that its exponent alone puts
outside the format is settled without the power of ten. -/
def ofDecimal (negative : Bool) (digits : Nat) (exponent : Int) : Binary64 :=
  if digits = 0 then .finite negative 0 minExponent
  else if decimalRange < exponent then .infinite negative
  else if (Nat.log2 digits : Int) + 1 + exponent < -decimalRange then .finite negative 0 minExponent
  else
    ofRatio negative (digits * powerOfTen exponent.toNat) (powerOfTen (-exponent).toNat)

end Binary64

end SchemaScribe
