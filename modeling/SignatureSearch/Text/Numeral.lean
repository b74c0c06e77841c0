/-
# `Text.Numeral` — integers written in a text

Two grammars are read.  `readInteger?` takes the decimal digits of every
script; `readLenient` takes ASCII digits and a fraction of zeros, and refuses
numbers of very many digits.  Both trim white space, take a sign and allow
single underscores between digits.
-/
import SignatureSearch.Text.Blank
import SignatureSearch.Text.Digit

namespace SignatureSearch.Text

def ofDigits (digits : List Nat) : Nat :=
  digits.foldl (fun n d => 10 * n + d) 0

/-- Digits with single underscores between them; `value` says what a digit is. -/
def digitGroups? (value : Char → Option Nat) : List Char → Option (List Nat)
  | [] => none
  | [c] => (value c).map ([·])
  | c :: '_' :: rest => do
    let d ← value c
    let ds ← digitGroups? value rest
    return d :: ds
  | c :: rest => do
    let d ← value c
    let ds ← digitGroups? value rest
    return d :: ds

/-- A natural number in the decimal digits of any script. -/
def readMagnitude? (cs : List Char) : Option Nat :=
  (digitGroups? digitValue? cs).map ofDigits

/-- An integer in the decimal digits of any script. -/
def readInteger? (s : String) : Option Int :=
  match trimBy isWhiteSpace s.toList with
  | '-' :: rest => (readMagnitude? rest).map fun n => -(n : Int)
  | '+' :: rest => (readMagnitude? rest).map Int.ofNat
  | cs => (readMagnitude? cs).map Int.ofNat

/-! ## Lenient numerals -/

/-- An integer in ASCII digits without leading zeros: `0`, `12`, `-3`. -/
def readPlain? (cs : List Char) : Option Int :=
  let natural? : List Char → Option Nat
    | ['0'] => some 0
    | c :: rest =>
      if c = '0' then none else ((c :: rest).mapM asciiDigitValue?).map ofDigits
    | [] => none
  match cs with
  | '-' :: rest => (natural? rest).map fun n => -(n : Int)
  | cs => (natural? cs).map Int.ofNat

/-- Drops leading zeros, with the underscores among them, but leaves one character before the end or
before a decimal point.  What follows the zeros may have a minus sign of its own; a text that starts
with no digit is refused. -/
def dropLeadingZeros? : List Char → Option (List Char)
  | '0' :: rest => go '0' rest
  | c :: rest => if c.isDigit then some (c :: rest) else none
  | [] => none
where
  /-- Continues after `last`, the last zero or underscore that was dropped. -/
  go (last : Char) : List Char → Option (List Char)
    | [] => some [last]
    | c :: rest =>
      if c = '0' || c = '_' then go c rest
      else if c.isDigit || c = '-' then some (c :: rest)
      else if c = '.' then some (last :: c :: rest)
      else none

/-- Drops a fraction that consists of zeros, of at least one. -/
def dropZeroFraction (cs : List Char) : List Char :=
  let fraction := (cs.dropWhile (· != '.')).drop 1
  if !fraction.isEmpty && fraction.all (· == '0') then cs.takeWhile (· != '.') else cs

/-- Drops single underscores inside a text; a text with an underscore at an end or with two in a row
stays as it is. -/
def dropUnderscores (cs : List Char) : List Char :=
  let rec twice : List Char → Bool
    | '_' :: '_' :: _ => true
    | _ :: rest => twice rest
    | [] => false
  if cs.head? == some '_' || cs.getLast? == some '_' || twice cs then cs
  else cs.filter (· != '_')

/-- The plain form of a lenient numeral: trimmed, without a plus sign, leading zeros, underscores
and a fraction of zeros.  None if it starts with no digit after the sign. -/
def plainForm? (s : String) : Option (List Char) :=
  let magnitude? (cs : List Char) : Option (List Char) :=
    (dropLeadingZeros? cs).map fun cs => dropUnderscores (dropZeroFraction cs)
  match trimBy isWhiteSpace s.toList with
  | '-' :: rest => (magnitude? rest).map ('-' :: ·)
  | '+' :: rest => magnitude? rest
  | cs => magnitude? cs

/-- How many digits a text starts with, after a minus sign; digits after a leading zero are not
counted. -/
def leadingDigits (cs : List Char) : Nat :=
  let digits := (if cs.head? = some '-' then cs.drop 1 else cs).takeWhile Char.isDigit
  if digits.head? = some '0' then 0 else digits.length

/-- Lenient numerals of more digits than this are not read. -/
def longestNumeral : Nat := 4300

/-- Why a text is not read as a lenient numeral. -/
inductive NumeralFault where
  | malformed
  /-- The text starts with more digits than are read. -/
  | tooLong
deriving DecidableEq, Repr

/-- An integer in ASCII digits, with leading zeros, underscores and a fraction of zeros allowed.
Only of a text that is plain up to there it is said that it has too many digits. -/
def readLenient (s : String) : Except NumeralFault Int :=
  if leadingDigits s.toList > longestNumeral then .error .tooLong
  else
    match (plainForm? s).filter fun cs => leadingDigits cs ≤ longestNumeral with
    | none => .error .malformed
    | some cs =>
      match readPlain? cs with
      | some n => .ok n
      | none => .error .malformed

end SignatureSearch.Text
