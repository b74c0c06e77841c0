/-
# `Text.Script` — scripts

The characters of the scripts that some signs are bound to (property `Script`
of Unicode 17).
-/
import SignatureSearch.Text.Runs

namespace SignatureSearch.Text

inductive Script where
  | greek
  | hebrew
  | hiragana
  | katakana
  | han
deriving DecidableEq, Repr

def Script.runs : Script → List Nat
  | .greek =>
    [880, 4, 1, 3, 2, 4, 1, 1, 4, 1, 1, 1, 1, 3, 1, 1, 1, 20, 1, 63, 14, 16, 6438, 5, 50, 5, 4, 5,
     84, 1, 320, 22, 2, 6, 2, 38, 2, 6, 2, 8, 1, 1, 1, 1, 1, 1, 1, 31, 2, 53, 1, 15, 1, 14, 2, 6, 1,
     19, 2, 3, 1, 9, 295, 1, 35390, 1, 21978, 79, 17, 1, 53343, 70]
  | .hebrew =>
    [1425, 55, 8, 27, 4, 6, 62760, 26, 1, 5, 1, 1, 1, 2, 1, 2, 1, 10]
  | .hiragana =>
    [12353, 86, 6, 3, 98145, 287, 18, 1, 29, 3, 16557, 1]
  | .katakana =>
    [12449, 90, 2, 3, 240, 16, 208, 47, 1, 88, 52238, 10, 1, 45, 45138, 4, 1, 7, 1, 2, 1, 1, 287, 3,
     50, 1, 14, 4]
  | .han =>
    [11904, 26, 1, 89, 12, 214, 47, 1, 1, 1, 25, 9, 14, 4, 964, 6592, 64, 20992, 22784, 366, 2, 106,
     29960, 2, 12, 7, 36873, 42720, 32, 4382, 2, 5774, 2, 7473, 15, 622, 2466, 542, 1506, 4939, 5,
     8490]

def Script.contains (s : Script) (n : Nat) : Bool :=
  Runs.contains s.runs n

end SignatureSearch.Text
