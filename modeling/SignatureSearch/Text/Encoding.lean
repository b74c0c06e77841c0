/-
# `Text.Encoding` — which encoding a byte stream shows

A byte order mark names the encoding.  Without one the first character is
ASCII, so the zero bytes among the first four tell UTF-16 and UTF-32 from
UTF-8.  Unpaired surrogates are let through, as replacement characters.
-/
import SignatureSearch.Text.Utf8

namespace SignatureSearch.Text

inductive Encoding where
  | utf8
  | utf16 (bigEndian : Bool)
  | utf32 (bigEndian : Bool)
deriving DecidableEq, Repr

namespace Encoding

/-- The encoding that the bytes show, and the bytes after a byte order mark. -/
def detect : List UInt8 → Encoding × List UInt8
  | 0x00 :: 0x00 :: 0xFE :: 0xFF :: rest => (.utf32 true, rest)
  | 0xFF :: 0xFE :: 0x00 :: 0x00 :: rest => (.utf32 false, rest)
  | 0xFE :: 0xFF :: rest => (.utf16 true, rest)
  | 0xFF :: 0xFE :: rest => (.utf16 false, rest)
  | 0xEF :: 0xBB :: 0xBF :: rest => (.utf8, rest)
  | [a, b] =>
    if a = 0 then (.utf16 true, [a, b])
    else if b = 0 then (.utf16 false, [a, b])
    else (.utf8, [a, b])
  | bytes@(a :: b :: c :: d :: _) =>
    if a = 0 then (if b = 0 then .utf32 true else .utf16 true, bytes)
    else if b = 0 then (if c = 0 && d = 0 then .utf32 false else .utf16 false, bytes)
    else (.utf8, bytes)
  | bytes => (.utf8, bytes)

/-- Bytes taken together two by two. -/
def units16 (bigEndian : Bool) : List UInt8 → Option (List Nat)
  | [] => some []
  | [_] => none
  | a :: b :: rest => do
    let units ← units16 bigEndian rest
    return (if bigEndian then a.toNat * 256 + b.toNat else b.toNat * 256 + a.toNat) :: units

def ofUnits16 : List Nat → List Char
  | [] => []
  | hi :: lo :: rest =>
    if 0xD800 ≤ hi && hi < 0xDC00 && 0xDC00 ≤ lo && lo < 0xE000 then
      Char.ofNat (0x10000 + (hi - 0xD800) * 0x400 + (lo - 0xDC00)) :: ofUnits16 rest
    else Utf8.ofCodePoint hi :: ofUnits16 (lo :: rest)
  | [u] => [Utf8.ofCodePoint u]

def ofBytes32 (bigEndian : Bool) : List UInt8 → Option (List Char)
  | [] => some []
  | a :: b :: c :: d :: rest => do
    let value (p q r s : UInt8) : Nat :=
      ((p.toNat * 256 + q.toNat) * 256 + r.toNat) * 256 + s.toNat
    let n := if bigEndian then value a b c d else value d c b a
    if n < 0x110000 then
      return Utf8.ofCodePoint n :: (← ofBytes32 bigEndian rest)
    else none
  | _ => none

/-- Decodes bytes of a known encoding. -/
def decode? : Encoding → List UInt8 → Option (List Char)
  | .utf8, bytes => (Utf8.decodeFrom true 0 bytes).toOption
  | .utf16 bigEndian, bytes => (units16 bigEndian bytes).map ofUnits16
  | .utf32 bigEndian, bytes => ofBytes32 bigEndian bytes

def decodeDetected? (bytes : List UInt8) : Option (List Char) :=
  let (encoding, rest) := detect bytes
  encoding.decode? rest

end Encoding
end SignatureSearch.Text
