/-
# `Text.Digit` — decimal digits and their values

Decimal digits of every script (general category `Nd` of Unicode 14).  They
come in whole blocks of ten, so the value of a digit is its place in its
block.
-/
import SignatureSearch.Text.Runs

namespace SignatureSearch.Text

/-- Gaps and runs of the decimal digits; each run is a multiple of ten long. -/
def digitRuns : List Nat :=
  [48, 10, 1574, 10, 134, 10, 198, 10, 412, 10, 118, 10, 118, 10, 118, 10, 118, 10, 118, 10,
   118, 10, 118, 10, 118, 10, 118, 10, 96, 10, 118, 10, 70, 10, 278, 10, 70, 10, 1862, 10, 38,
   10, 300, 10, 128, 10, 166, 10, 6, 10, 182, 10, 86, 10, 134, 10, 6, 10, 35270, 10, 678, 10,
   38, 10, 198, 10, 22, 10, 86, 10, 406, 10, 21270, 10, 1414, 10, 2182, 10, 812, 10, 128, 10,
   60, 10, 144, 10, 278, 10, 342, 10, 118, 10, 374, 10, 102, 10, 102, 10, 422, 10, 102, 10, 758,
   10, 246, 10, 70, 10, 19638, 10, 86, 10, 134, 10, 27764, 50, 2368, 10, 422, 10, 1622, 10,
   4758, 10]

/-- The value of a decimal digit of any script. -/
def digitValue? (c : Char) : Option Nat :=
  (Runs.place? digitRuns c.toNat).map (· % 10)

/-- The value of a digit `0` to `9`. -/
def asciiDigitValue? (c : Char) : Option Nat :=
  if c.isDigit then some (c.toNat - '0'.toNat) else none

end SignatureSearch.Text
