/-
# `Text.Direction` — writing directions

The direction in which a letter is written, and how digits, marks and signs go
along with the letters around them (property `Bidi_Class` of Unicode 14, for
the characters of host names).  Characters that came later have none.
-/
import SignatureSearch.Text.Mark

namespace SignatureSearch.Text

/-- How a character takes part in the direction of a text. -/
inductive Direction where
  /-- A letter that is written to the right. -/
  | rightward
  /-- A letter that is written to the left. -/
  | leftward
  /-- A letter that is written to the left, and changes the digits after it. -/
  | arabic
  /-- A digit of a number in an Arabic text. -/
  | arabicDigit
  /-- Any other digit. -/
  | digit
  /-- A mark, which goes along with its character. -/
  | mark
  /-- A sign that goes along with what stands around it. -/
  | neutral
deriving DecidableEq, Repr

/-- A letter or digit of a text that is written to the left. -/
def Direction.isLeftward (d : Direction) : Bool :=
  d = .leftward || d = .arabic || d = .arabicDigit

def Direction.isDigit (d : Direction) : Bool :=
  d = .digit || d = .arabicDigit

/-- Gaps and runs of the characters that came after Unicode 14. -/
def laterRuns : List Nat :=
  [2191, 1, 7, 1, 964, 1, 127, 1, 22, 1, 474, 1, 3072, 15, 2, 12, 414, 1, 35650, 1, 1, 1, 11, 1,
   24036, 52, 844, 26, 998, 16, 25, 5, 1, 23, 316, 6, 50, 6, 831, 3, 318, 10, 1, 1, 2, 1, 1, 38, 1,
   10, 1, 1, 2, 1, 1, 4, 1, 8, 13, 2, 749, 20, 1148, 8, 88, 33, 15, 10, 438, 44, 4, 10, 278, 17, 1,
   41, 3, 5, 13, 11, 5332, 1, 16, 22, 10, 3995, 7429, 58, 3078, 45, 3, 10, 321, 25, 286, 2, 6148,
   8, 1279, 1, 9, 22, 97, 115, 9023, 1, 34, 1, 11727, 6, 356, 1, 1088, 42, 214, 43, 197, 31, 1, 22,
   8, 2, 53305, 7, 5986, 12, 7490, 622, 9458, 8490]

/-- Gaps and runs of the letters that are written to the left and leave digits as they are. -/
def leftwardRuns : List Nat :=
  [1488, 27, 4, 6, 459, 43, 9, 2, 10, 22, 4, 1, 9, 1, 3, 1, 23, 25, 65447, 6, 2, 1, 1, 44, 1, 2, 3,
   1, 2, 23, 10, 23, 9, 31, 65, 19, 1, 2, 10, 22, 10, 26, 70, 56, 6, 2, 64, 1, 15, 4, 1, 3, 1, 29,
   42, 29, 3, 29, 35, 8, 1, 28, 27, 54, 10, 22, 10, 19, 13, 18, 110, 73, 119, 51, 397, 42, 6, 2,
   78, 29, 10, 1, 72, 18, 46, 21, 27, 23, 55305, 197, 93, 34, 7, 1, 4, 10]

/-- Gaps and runs of the letters that are written to the left and change the digits after them. -/
def arabicRuns : List Nat :=
  [1568, 32, 1, 10, 35, 2, 1, 4, 4, 91, 1, 1, 15, 2, 7, 2, 10, 6, 16, 1, 1, 30, 29, 89, 11, 1, 174,
   11, 5, 24, 1, 6, 17, 42, 62889, 1, 3724, 36, 524, 22]

/-- Gaps and runs of the digits of numbers in Arabic texts. -/
def arabicDigitRuns : List Nat :=
  [1632, 10, 67270, 10]

/-- Gaps and runs of the other digits. -/
def plainDigitRuns : List Nat :=
  [48, 10, 1718, 10]

/-- Gaps and runs of the signs. -/
def neutralRuns : List Nat :=
  [45, 1, 137, 1, 513, 2, 11, 10, 28, 1, 136, 1, 7318, 2, 3617, 1, 715, 1, 30083, 1, 151, 9, 104, 1]

/-- Marks that take no room, and are written to the right like letters. -/
def rightwardMarks : List Nat :=
  [0xCBF, 0xCC6, 0x11A07, 0x11A08, 0x11C3F]

/-- The character came after Unicode 14. -/
def isLater (n : Nat) : Bool :=
  Runs.contains laterRuns n

def direction? (n : Nat) : Option Direction :=
  if isLater n then none
  else if Runs.contains leftwardRuns n then some .leftward
  else if Runs.contains arabicRuns n then some .arabic
  else if Runs.contains arabicDigitRuns n then some .arabicDigit
  else if Runs.contains plainDigitRuns n then some .digit
  else if Runs.contains neutralRuns n then some .neutral
  else if isNonspacing n && !rightwardMarks.contains n then some .mark
  else some .rightward

end SignatureSearch.Text
