/-
# `Text.Mark` — marks

Marks are written on, around or beside the character before them (categories
`Mn`, `Me` and `Mc` of Unicode 14).
-/
import SignatureSearch.Text.Runs

namespace SignatureSearch.Text

/-- Gaps and runs of the marks that take no room of their own. -/
def nonspacingRuns : List Nat :=
  [768, 112, 275, 7, 263, 45, 1, 1, 1, 2, 1, 2, 1, 1, 72, 11, 48, 21, 16, 1, 101, 7, 2, 6, 2, 2, 1,
   4, 35, 1, 30, 27, 91, 11, 58, 9, 9, 1, 24, 4, 1, 9, 1, 3, 1, 5, 43, 3, 60, 8, 42, 24, 1, 32, 55,
   1, 1, 1, 4, 8, 4, 1, 3, 7, 10, 2, 29, 1, 58, 1, 4, 4, 8, 1, 20, 2, 26, 1, 2, 2, 57, 1, 4, 2, 4,
   2, 2, 3, 3, 1, 30, 2, 3, 1, 11, 2, 57, 1, 4, 5, 1, 2, 4, 1, 20, 2, 22, 6, 1, 1, 58, 1, 2, 1, 1,
   4, 8, 1, 7, 2, 11, 2, 30, 1, 61, 1, 12, 1, 50, 1, 3, 1, 55, 1, 1, 3, 5, 3, 1, 4, 7, 2, 11, 2,
   29, 1, 58, 1, 2, 1, 6, 1, 5, 2, 20, 2, 28, 2, 57, 2, 4, 4, 8, 1, 20, 2, 29, 1, 72, 1, 7, 3, 1,
   1, 90, 1, 2, 7, 12, 8, 98, 1, 2, 9, 11, 6, 74, 2, 27, 1, 1, 1, 1, 1, 55, 14, 1, 5, 1, 2, 5, 11,
   1, 36, 9, 1, 102, 4, 1, 6, 1, 2, 2, 2, 25, 2, 4, 3, 16, 4, 13, 1, 2, 2, 6, 1, 15, 1, 703, 3,
   946, 3, 29, 2, 30, 2, 30, 2, 64, 2, 1, 7, 8, 1, 2, 11, 9, 1, 45, 3, 1, 1, 117, 2, 34, 1, 118, 3,
   4, 2, 9, 1, 6, 3, 219, 2, 2, 1, 58, 1, 1, 7, 1, 1, 1, 1, 2, 8, 6, 10, 2, 1, 48, 31, 49, 4, 48,
   1, 1, 5, 1, 1, 5, 1, 40, 9, 12, 2, 32, 4, 2, 2, 1, 3, 56, 1, 1, 2, 3, 1, 1, 3, 58, 8, 2, 2, 152,
   3, 1, 13, 1, 7, 4, 1, 6, 1, 3, 2, 198, 64, 720, 33, 3070, 3, 141, 1, 96, 32, 554, 4, 107, 2,
   30164, 4, 1, 10, 32, 2, 80, 2, 272, 1, 3, 1, 4, 1, 25, 2, 5, 1, 151, 2, 26, 18, 13, 1, 38, 8,
   25, 11, 46, 3, 48, 1, 2, 4, 2, 2, 39, 1, 67, 6, 2, 2, 2, 2, 12, 1, 8, 1, 47, 1, 51, 1, 1, 3, 2,
   2, 5, 2, 1, 1, 42, 2, 8, 1, 238, 1, 2, 1, 4, 1, 20272, 1, 737, 16, 16, 16, 973, 1, 226, 1, 149,
   5, 1670, 3, 1, 2, 5, 4, 40, 3, 4, 1, 165, 2, 573, 4, 387, 2, 153, 11, 49, 4, 123, 1, 54, 15, 41,
   1, 2, 2, 10, 3, 49, 4, 2, 2, 7, 1, 61, 3, 36, 5, 1, 8, 62, 1, 12, 2, 52, 9, 10, 4, 2, 1, 95, 3,
   2, 1, 1, 2, 6, 1, 160, 1, 3, 8, 21, 2, 57, 2, 3, 1, 37, 7, 3, 5, 195, 8, 2, 3, 1, 1, 23, 1, 84,
   6, 1, 1, 4, 2, 1, 2, 238, 4, 6, 2, 1, 2, 27, 2, 85, 8, 2, 1, 1, 2, 106, 1, 1, 1, 2, 6, 1, 1,
   101, 3, 2, 4, 1, 5, 259, 9, 1, 2, 256, 2, 1, 1, 4, 1, 144, 4, 2, 2, 4, 1, 32, 10, 40, 6, 2, 4,
   8, 1, 9, 6, 2, 3, 46, 13, 1, 2, 406, 7, 1, 6, 1, 1, 82, 22, 2, 7, 1, 2, 1, 2, 122, 6, 3, 1, 1,
   2, 1, 7, 1, 1, 72, 2, 3, 1, 1, 1, 347, 2, 19451, 5, 59, 7, 1048, 1, 63, 4, 81, 1, 19640, 2,
   4705, 46, 2, 23, 544, 3, 17, 8, 2, 7, 30, 4, 148, 3, 1979, 55, 4, 50, 8, 1, 14, 1, 22, 5, 1, 15,
   1360, 7, 1, 17, 2, 7, 1, 2, 1, 5, 261, 7, 375, 1, 61, 4, 1504, 7, 109, 7, 792501, 240]

/-- Gaps and runs of the marks that take room. -/
def spacingRuns : List Nat :=
  [2307, 1, 55, 1, 2, 3, 8, 4, 1, 2, 50, 2, 58, 3, 6, 2, 2, 2, 10, 1, 43, 1, 58, 3, 66, 1, 58, 3,
   8, 1, 1, 2, 53, 2, 58, 1, 1, 1, 6, 2, 2, 2, 10, 1, 102, 2, 1, 2, 3, 3, 1, 3, 10, 1, 41, 3, 61,
   4, 61, 2, 58, 1, 1, 5, 2, 2, 1, 2, 9, 2, 43, 2, 58, 3, 5, 3, 1, 3, 10, 1, 42, 2, 75, 3, 6, 8,
   18, 2, 330, 2, 63, 1, 171, 2, 4, 1, 6, 1, 2, 2, 25, 2, 10, 3, 2, 7, 21, 2, 2, 6, 2, 1, 10, 3,
   1656, 1, 30, 1, 129, 1, 7, 8, 1, 2, 346, 4, 2, 3, 4, 2, 1, 6, 224, 2, 58, 1, 1, 1, 9, 1, 1, 2,
   8, 6, 145, 1, 48, 1, 5, 1, 1, 5, 1, 2, 61, 1, 30, 1, 4, 2, 2, 1, 60, 1, 2, 3, 1, 1, 3, 2, 48, 8,
   8, 2, 171, 1, 21, 1, 4918, 2, 30707, 2, 2, 1, 88, 2, 50, 16, 142, 2, 47, 1, 48, 2, 4, 2, 2, 3,
   110, 2, 2, 2, 24, 1, 45, 1, 1, 1, 109, 1, 2, 2, 5, 1, 237, 2, 1, 2, 1, 2, 1, 1, 25619, 1, 1, 1,
   127, 1, 45, 3, 4, 2, 115, 1, 24, 2, 59, 1, 48, 3, 9, 2, 13, 1, 93, 3, 3, 2, 1, 1, 170, 3, 31, 2,
   58, 2, 1, 4, 2, 2, 2, 3, 9, 1, 10, 2, 209, 3, 8, 2, 3, 1, 106, 3, 6, 1, 1, 4, 2, 1, 237, 3, 6,
   4, 2, 1, 113, 3, 8, 2, 1, 1, 109, 1, 1, 2, 6, 1, 105, 2, 4, 1, 261, 3, 9, 1, 247, 6, 1, 2, 4, 1,
   2, 1, 1, 1, 142, 3, 8, 4, 4, 1, 84, 1, 29, 2, 62, 1, 407, 1, 14, 1, 106, 1, 7, 1, 2, 1, 213, 5,
   4, 2, 1, 1, 350, 2, 20570, 55, 104, 2, 24947, 2, 6, 6]

/-- A mark that takes no room of its own. -/
def isNonspacing (n : Nat) : Bool :=
  Runs.contains nonspacingRuns n

def isMark (n : Nat) : Bool :=
  isNonspacing n || Runs.contains spacingRuns n

end SignatureSearch.Text
