/-
# `Text.Ascii` — texts that have to be in ASCII

A failure spans the first run of characters that are not in ASCII.
-/
import SignatureSearch.Text.Quoted

namespace SignatureSearch.Text.Ascii

structure Failure where
  /-- Offset of the first character of the run. -/
  start : Nat
  /-- The first character. -/
  first : Char
  /-- Number of characters in the run, at least one. -/
  length : Nat
deriving DecidableEq, Repr

def isAscii (c : Char) : Bool :=
  c.toNat < 128

/-- Refuses a text that is not in ASCII. -/
def check (cs : List Char) : Except Failure Unit :=
  match cs.dropWhile isAscii with
  | [] => .ok ()
  | c :: rest =>
    .error ⟨(cs.takeWhile isAscii).length, c, 1 + (rest.takeWhile (!isAscii ·)).length⟩

/-- A character by its code point, escaped. -/
def escaped (c : Char) : List Char :=
  if c.toNat ≤ 0xFF then ['\\', 'x'] ++ hexPadded 2 c.toNat
  else if c.toNat ≤ 0xFFFF then ['\\', 'u'] ++ hexPadded 4 c.toNat
  else ['\\', 'U'] ++ hexPadded 8 c.toNat

/-- The wording of a failure: a single character is shown, several are located. -/
def Failure.message (f : Failure) : String :=
  let place :=
    if f.length = 1 then s!"character '{String.ofList (escaped f.first)}' in position {f.start}"
    else s!"characters in position {f.start}-{f.start + f.length - 1}"
  s!"'ascii' codec can't encode {place}: ordinal not in range(128)"

end SignatureSearch.Text.Ascii
