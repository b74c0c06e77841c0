/-
# `Text.Composition` — composed texts

A text can write a character with marks in more than one way.  In a composed
text every character is put together with as many of its marks as can be, the
other marks stand in the order of their classes, and no character stands that
is never preferred.

`composed` takes the composites of a text apart, puts the marks in order, and
puts together what belongs together; a text is composed if this changes
nothing.
-/
import SignatureSearch.Text.CombiningClass
import SignatureSearch.Text.Composite

namespace SignatureSearch.Text

/-- No composite has more marks than this on a character that is none. -/
def mostMarks : Nat := 3

/-- The character of a composite and its marks, where at most so many marks are taken off. -/
def takeApart : Nat → Nat → List Nat
  | 0, n => [n]
  | marks + 1, n =>
    match parts? n with
    | some (base, mark) => takeApart marks base ++ [mark]
    | none => [n]

/-- Puts a character before others whose marks are in order: a mark goes after those of lower
classes. -/
def settle (n : Nat) : List Nat → List Nat
  | [] => [n]
  | m :: rest =>
    if 0 < combiningClass m && combiningClass m < combiningClass n then m :: settle n rest
    else n :: m :: rest

/-- Puts marks in the order of their classes. -/
def inOrder (cs : List Nat) : List Nat :=
  cs.foldr settle []

/-- Puts a character together with marks after it.  `kept` holds the marks between that stay, the
last one first; a mark of the same class or a higher one shuts off what comes after it. -/
def putTogether (base : Nat) (kept : List Nat) : List Nat → List Nat
  | [] => base :: kept.reverse
  | n :: rest =>
    let isOpen := kept.head?.all fun last => combiningClass last < combiningClass n
    match if isOpen then compose? base n else none with
    | some composite => putTogether composite kept rest
    | none =>
      if combiningClass n = 0 then base :: kept.reverse ++ putTogether n [] rest
      else putTogether base (n :: kept) rest

/-- The composed form of a text without characters that are never preferred. -/
def composed (cs : List Nat) : List Nat :=
  match inOrder (cs.flatMap (takeApart mostMarks)) with
  | [] => []
  | n :: rest => putTogether n [] rest

def isComposed (cs : List Nat) : Bool :=
  !cs.any (Runs.contains replacedRuns) && composed cs = cs

end SignatureSearch.Text
