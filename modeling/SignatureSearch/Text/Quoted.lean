/-
# `Text.Quoted` — quoted text, as error messages show it

A text stands between single quotes, or between double quotes if it holds a
single quote and no double one.  The backslash and the quote are escaped, and
so is every character that is not printable: the usual three by a letter, the
others by their code point in two, four or eight hexadecimal digits.
-/
import SignatureSearch.Text.Printable

namespace SignatureSearch.Text

/-- A number in lowercase hexadecimal, filled with zeros to a width. -/
def hexPadded (width n : Nat) : List Char :=
  let digits := Nat.toDigits 16 n
  List.replicate (width - digits.length) '0' ++ digits

/-- One character between the quotes `quote`. -/
def quoteChar (quote c : Char) : List Char :=
  if c = quote || c = '\\' then ['\\', c]
  else if c = '\n' then ['\\', 'n']
  else if c = '\r' then ['\\', 'r']
  else if c = '\t' then ['\\', 't']
  else if isPrintable c then [c]
  else if c.toNat ≤ 0xFF then ['\\', 'x'] ++ hexPadded 2 c.toNat
  else if c.toNat ≤ 0xFFFF then ['\\', 'u'] ++ hexPadded 4 c.toNat
  else ['\\', 'U'] ++ hexPadded 8 c.toNat

/-- The quote that a text is put between. -/
def quoteFor (cs : List Char) : Char :=
  if cs.contains '\'' && !cs.contains '"' then '"' else '\''

def quoted (s : String) : String :=
  let quote := quoteFor s.toList
  String.ofList ([quote] ++ s.toList.flatMap (quoteChar quote) ++ [quote])

end SignatureSearch.Text
