/-
# `Text.Percent` — percent encoding and query strings

A query is a form: pairs of a name and a value, separated by `&`, where a plus
sign stands for a space and a percent sign with two hexadecimal digits for a
byte of UTF-8.  A name without a value has the empty one.  A query arrives as
bytes, and a byte that is not percent-encoded stands for the character of its
number.
-/
import SignatureSearch.Text.Quoted
import SignatureSearch.Text.Search
import SignatureSearch.Text.Utf8

namespace SignatureSearch.Text

def hexDigit? (c : Char) : Option Nat :=
  if c.isDigit then some (c.toNat - '0'.toNat)
  else if 'a' ≤ c && c ≤ 'f' then some (c.toNat - 'a'.toNat + 10)
  else if 'A' ≤ c && c ≤ 'F' then some (c.toNat - 'A'.toNat + 10)
  else none

namespace Percent

/-- The bytes that a percent-encoded text stands for. -/
def bytes : List Char → List UInt8
  | [] => []
  | '%' :: a :: b :: rest =>
    match hexDigit? a, hexDigit? b with
    | some x, some y => (16 * x + y).toUInt8 :: bytes rest
    | _, _ => Utf8.encode "%" ++ bytes (a :: b :: rest)
  | c :: rest => Utf8.encode (String.ofList [c]) ++ bytes rest
termination_by cs => cs.length

def decode (cs : List Char) : List Char :=
  Utf8.decodeLossy (bytes cs)

def decodeForm (cs : List Char) : List Char :=
  decode (cs.map fun c => if c = '+' then ' ' else c)

def pairs (query : List Char) : List (List Char × List Char) :=
  ((splitOn '&' query).filter (!·.isEmpty)).map fun part =>
    match cutChar '=' part with
    | some (name, value) => (decodeForm name, decodeForm value)
    | none => (decodeForm part, [])

/-- The bytes of a text, each taken for the character of its number. -/
def bytewise (s : String) : List Char :=
  (Utf8.encode s).map fun b => Char.ofNat b.toNat

/-- The value of a name in a query string; the last one counts. -/
def lookup? (query name : String) : Option String :=
  ((pairs (bytewise query)).reverse.find? (·.1 == name.toList)).map fun (_, value) =>
    String.ofList value

/-- The characters of an address that stay as they are: letters, digits and the marks that
structure it. -/
def isKept (c : Char) : Bool :=
  c.isAlphanum || "_.-~:/%#?=@[]!$&'()*+,;".toList.contains c

/-- A character as percent-encoded bytes. -/
def escape (c : Char) : List Char :=
  (Utf8.encode (String.ofList [c])).flatMap fun b =>
    '%' :: (Utf8.hexByte b).toList.map Char.toUpper

/-- Percent-encodes the characters outside a class. -/
def encode (kept : Char → Bool) (cs : List Char) : List Char :=
  cs.flatMap fun c => if kept c then [c] else escape c

/-- Percent-encodes what may not stand in an address. -/
def encodeAddress (s : String) : String :=
  String.ofList (encode isKept s.toList)

end Percent
end SignatureSearch.Text
