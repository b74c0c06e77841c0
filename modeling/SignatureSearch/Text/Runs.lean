/-
# `Text.Runs` — character classes as gaps and runs

A class is written as a list of numbers that alternately count the code points
outside and inside it, from code point zero on: `[48, 10]` is the ten
characters from 48 on.
-/
namespace SignatureSearch.Text.Runs

/-- The place of a code point in its run, counted from zero; none outside the class. -/
def place? : List Nat → Nat → Option Nat
  | gap :: run :: rest, n =>
    if n < gap then none
    else if n < gap + run then some (n - gap)
    else place? rest (n - (gap + run))
  | _, _ => none

/-- The code point is in the class. -/
def contains (runs : List Nat) (n : Nat) : Bool :=
  (place? runs n).isSome

end SignatureSearch.Text.Runs
