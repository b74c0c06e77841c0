/-
# `Binary64.Shortest` — the shortest decimal that reads back

The reals that round to a number form an interval around it, whose ends belong
to it if the mantissa is even.  For one digit, two digits and so on, at most
seventeen, the two neighbours of the number on the decimal grid are tried; the
first grid with a neighbour inside the interval wins, and of two neighbours
inside it the nearer.
-/
import SignatureSearch.Binary64

namespace SignatureSearch.Binary64

/-- Decimal digits and the place of the point: `0.digits · 10 ^ point`. -/
structure Decimal where
  digits : Nat
  point : Int
deriving DecidableEq, Repr

/-- The interval of the reals that round to `mantissa · 2 ^ exponent`, in quarters of the last
place: its lower end, the number, and its upper end. -/
def interval (mantissa : Nat) (exponent : Int) : Nat × Nat × Nat :=
  let low :=
    if mantissa = Nat.pow 2 52 && leastExponent < exponent then 4 * mantissa - 1
    else 4 * mantissa - 2
  (low, 4 * mantissa, 4 * mantissa + 2)

/-- The number of decimal digits before the point of `num / den`; not positive below one tenth. -/
def pointOf (num den : Nat) : Int :=
  if den ≤ num then (Nat.toDigits 10 (num / den)).length
  else 1 - ((Nat.toDigits 10 ((den - 1) / num)).length : Int)

/-- The decimal of `count` digits for a number, if one reads back. -/
def withDigits? (mantissa : Nat) (exponent : Int) (count : Nat) : Option Decimal :=
  let (low, value, high) := interval mantissa exponent
  let unit := exponent - 2
  let (num, den) :=
    if 0 ≤ unit then (value * Nat.pow 2 unit.toNat, 1) else (value, Nat.pow 2 (-unit).toNat)
  let point := pointOf num den
  let shift := (count : Int) - point
  -- a grid point `k` stands for `k · 10 ^ (-shift)`; compare it in quarters of the last place
  let (up, down) :=
    if 0 ≤ shift then (Nat.pow 10 shift.toNat, 1) else (1, Nat.pow 10 (-shift).toNat)
  let (binUp, binDown) :=
    if 0 ≤ unit then (Nat.pow 2 unit.toNat, 1) else (1, Nat.pow 2 (-unit).toNat)
  let grid (k : Nat) : Nat := k * down * binDown
  let quarters (q : Nat) : Nat := q * binUp * up
  let inside (k : Nat) : Bool :=
    let x := grid k
    if mantissa % 2 = 0 then quarters low ≤ x && x ≤ quarters high
    else quarters low < x && x < quarters high
  let below := (num * up) / (den * down)
  let above := below + 1
  let toBelow := quarters value - grid below
  let toAbove := grid above - quarters value
  let nearerBelow := toBelow < toAbove || (toBelow = toAbove && below % 2 = 0)
  let chosen? :=
    if inside below && (nearerBelow || !inside above) then some below
    else if inside above then some above
    else none
  chosen?.map fun k => if k = Nat.pow 10 count then ⟨1, point + 1⟩ else ⟨k, point⟩

/-- The shortest decimal of a finite number that is not zero. -/
def shortest (mantissa : Nat) (exponent : Int) : Decimal :=
  let found := (List.range 17).findSome? fun n => withDigits? mantissa exponent (n + 1)
  found.getD ⟨0, 0⟩

/-- How numbers are written: positionally while the point stands after place -4 and not after place
16, otherwise with an exponent of two digits at least; a positional number has a fraction. -/
def render : Binary64 → String
  | .nan => "nan"
  | .infinite negative => if negative then "-inf" else "inf"
  | .finite negative m e =>
    let sign := if negative then "-" else ""
    if m = 0 then sign ++ "0.0"
    else
      let ⟨digits, point⟩ := shortest m e
      let ds := ((Nat.toDigits 10 digits).reverse.dropWhile (· == '0')).reverse
      let count : Int := ds.length
      let zeros (n : Int) : List Char := List.replicate n.toNat '0'
      let body : List Char :=
        if point ≤ -4 || 16 < point then
          let fraction := if ds.length ≤ 1 then [] else '.' :: ds.drop 1
          let power := point - 1
          let powerDigits := Nat.toDigits 10 power.natAbs
          let padding := List.replicate (2 - powerDigits.length) '0'
          ds.take 1 ++ fraction ++ ['e', if power < 0 then '-' else '+'] ++ padding ++ powerDigits
        else if point ≤ 0 then ['0', '.'] ++ zeros (-point) ++ ds
        else if count ≤ point then ds ++ zeros (point - count) ++ ['.', '0']
        else ds.take point.toNat ++ ['.'] ++ ds.drop point.toNat
      sign ++ String.ofList body

end SignatureSearch.Binary64
