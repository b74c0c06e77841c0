/-
# `Binary64` — floating point numbers of 64 bits, as exact values

A finite number is a sign, a mantissa and a power of two.  Numbers are made by
`ofRatio`, which rounds a quotient to the nearest number and a tie to the even
mantissa; so every operation is exact arithmetic followed by one rounding.
-/
namespace SignatureSearch

/-- A floating point number: `±mantissa · 2 ^ exponent`, an infinity, or not a number.  `ofRatio`
gives the mantissa 53 bits unless the exponent has reached its least value, -1074. -/
inductive Binary64 where
  | finite (negative : Bool) (mantissa : Nat) (exponent : Int)
  | infinite (negative : Bool)
  | nan
deriving DecidableEq, Repr

namespace Binary64

def leastExponent : Int := -1074

/-- The greatest exponent of a finite number. -/
def greatestExponent : Int := 971

/-- `num / den` to the nearest integer, a tie to the even one. -/
def roundDiv (num den : Nat) : Nat :=
  let q := num / den
  let r := num % den
  if 2 * r < den || (2 * r = den && q % 2 = 0) then q else q + 1

/-- `num / (den · 2 ^ e)` as a pair of numerator and denominator. -/
def scale (num den : Nat) (e : Int) : Nat × Nat :=
  if 0 ≤ e then (num, den * Nat.pow 2 e.toNat) else (num * Nat.pow 2 (-e).toNat, den)

/-- The exponent with which the quotient has a mantissa of 53 bits, if that is not too small. -/
def exponentFor (num den : Nat) : Int :=
  let guess : Int := (Nat.log2 num : Int) - (Nat.log2 den : Int) - 53
  let (n, d) := scale num den guess
  max leastExponent (if n / d < Nat.pow 2 53 then guess else guess + 1)

/-- The number nearest to `±num / den`. -/
def ofRatio (negative : Bool) (num den : Nat) : Binary64 :=
  if num = 0 then .finite negative 0 leastExponent
  else
    let e := exponentFor num den
    let (n, d) := scale num den e
    let m := roundDiv n d
    let (m, e) := if m = Nat.pow 2 53 then (Nat.pow 2 52, e + 1) else (m, e)
    if greatestExponent < e then .infinite negative else .finite negative m e

/-- The number nearest to `±digits · 10 ^ exponent`.  Exponents far outside the range are settled
without computing the power. -/
def ofDecimal (negative : Bool) (digits : Nat) (exponent : Int) : Binary64 :=
  let size : Int := (Nat.toDigits 10 digits).length + exponent
  if digits = 0 || size < -400 then .finite negative 0 leastExponent
  else if 400 < size then .infinite negative
  else if 0 ≤ exponent then ofRatio negative (digits * Nat.pow 10 exponent.toNat) 1
  else ofRatio negative digits (Nat.pow 10 (-exponent).toNat)

def ofInt (n : Int) : Binary64 :=
  ofRatio (n < 0) n.natAbs 1

/-- A finite number as a signed numerator over a positive denominator. -/
def toRatio? : Binary64 → Option (Int × Nat)
  | .finite negative m e =>
    let (n, d) := if 0 ≤ e then (m * Nat.pow 2 e.toNat, 1) else (m, Nat.pow 2 (-e).toNat)
    some (if negative then -(n : Int) else n, d)
  | _ => none

/-- The integer part of a finite number, rounded toward zero. -/
def truncate? (x : Binary64) : Option Int :=
  x.toRatio?.map fun (n, d) => Int.tdiv n d

/-- The integer that a finite number is equal to. -/
def toInt? (x : Binary64) : Option Int :=
  x.toRatio?.bind fun (n, d) => if n % d = 0 then some (n / d) else none

/-- A number plus an integer, the integer rounded first. -/
def addInt (x : Binary64) (k : Int) : Binary64 :=
  match x.toRatio?, (ofInt k).toRatio? with
  | some (n, d), some (n', d') =>
    let sum := n * d' + n' * d
    ofRatio (sum < 0) sum.natAbs (d * d')
  | _, _ => x

end Binary64
end SignatureSearch
