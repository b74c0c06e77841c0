/-
# `Text.Blank` — blank characters, and cutting texts at them

Two classes stand side by side.  `isWhiteSpace` is the Unicode property
`White_Space`; `isBlank` adds the four ASCII information separators, and is
the class by which sources are laid out and texts are trimmed.
-/
namespace SignatureSearch.Text

/-- The Unicode property `White_Space`. -/
def isWhiteSpace (c : Char) : Bool :=
  let n := c.toNat
  (9 ≤ n && n ≤ 13) || n == 32 || n == 0x85 || n == 0xA0 || n == 0x1680 ||
    (0x2000 ≤ n && n ≤ 0x200A) || n == 0x2028 || n == 0x2029 || n == 0x202F ||
    n == 0x205F || n == 0x3000

/-- White space or an information separator. -/
def isBlank (c : Char) : Bool :=
  isWhiteSpace c || (0x1C ≤ c.toNat && c.toNat ≤ 0x1F)

/-- Drops the characters of a class from both ends. -/
def trimBy (p : Char → Bool) (cs : List Char) : List Char :=
  ((cs.dropWhile p).reverse.dropWhile p).reverse

/-- Drops the blank characters from both ends. -/
def trim (cs : List Char) : List Char :=
  trimBy isBlank cs

/-- The part of the first word that `cs` starts with, and the words after it. -/
def leadingWord : List Char → List Char × List (List Char)
  | [] => ([], [])
  | c :: rest =>
    let (word, others) := leadingWord rest
    if isBlank c then ([], if word.isEmpty then others else word :: others)
    else (c :: word, others)

/-- The maximal runs of characters that are not blank, in order. -/
def words (cs : List Char) : List (List Char) :=
  let (word, others) := leadingWord cs
  if word.isEmpty then others else word :: others

/-- Trims a text and replaces every inner run of blank characters by one space. -/
def collapse (cs : List Char) : List Char :=
  [' '].intercalate (words cs)

def squeeze (cs : List Char) : List Char :=
  (words cs).flatten

end SignatureSearch.Text
