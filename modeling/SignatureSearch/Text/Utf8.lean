/-
# `Text.Utf8` — characters as bytes

`Utf8.step` reads one character.  Where the bytes are no UTF-8 it gives the
longest start of a sequence that could still have become a character, so a
failure spans the same bytes whoever reports it: `Utf8.decode` refuses the
text there, `Utf8.decodeLossy` puts one replacement character in its place and
goes on.
-/
namespace SignatureSearch.Text.Utf8

inductive Reason where
  | invalidStart
  | invalidContinuation
  | unexpectedEnd
deriving DecidableEq, Repr

structure Failure where
  /-- Offset of the first byte of the span. -/
  start : Nat
  /-- Number of bytes in the span, at least one. -/
  length : Nat
  /-- The byte at `start`. -/
  first : UInt8
  reason : Reason
deriving DecidableEq, Repr

/-- What the bytes start with: a character or a failure, and how many bytes after the first belong
to it. -/
inductive Step where
  | char (c : Char) (more : Nat)
  | bad (reason : Reason) (more : Nat)

/-- A byte that continues a character. -/
def isContinuation (b : UInt8) : Bool :=
  0x80 ≤ b && b ≤ 0xBF

/-- What a first byte asks for: the bounds of the second byte and the number of bytes after that. -/
def demand? (surrogates : Bool) (b : UInt8) : Option (UInt8 × UInt8 × Nat) :=
  if 0xC2 ≤ b && b ≤ 0xDF then some (0x80, 0xBF, 0)
  else if b = 0xE0 then some (0xA0, 0xBF, 1)
  else if b = 0xED then some (0x80, if surrogates then 0xBF else 0x9F, 1)
  else if 0xE1 ≤ b && b ≤ 0xEF then some (0x80, 0xBF, 1)
  else if b = 0xF0 then some (0x90, 0xBF, 2)
  else if 0xF1 ≤ b && b ≤ 0xF3 then some (0x80, 0xBF, 2)
  else if b = 0xF4 then some (0x80, 0x8F, 2)
  else none

/-- The character of a code point; a surrogate is shown as a replacement character. -/
def ofCodePoint (n : Nat) : Char :=
  if 0xD800 ≤ n && n ≤ 0xDFFF then Char.ofNat 0xFFFD else Char.ofNat n

/-- The bits that a continuation byte carries. -/
def payload (b : UInt8) : Nat :=
  b.toNat % 64

/-- Reads one character from a first byte and the bytes after it. -/
def step (surrogates : Bool) (b : UInt8) (rest : List UInt8) : Step :=
  if b < 0x80 then .char (Char.ofNat b.toNat) 0
  else
    match demand? surrogates b with
    | none => .bad .invalidStart 0
    | some (lo, hi, more) =>
      match rest with
      | [] => .bad .unexpectedEnd 0
      | b₁ :: rest =>
        if b₁ < lo || hi < b₁ then .bad .invalidContinuation 0
        else if more = 0 then .char (ofCodePoint (b.toNat % 32 * 64 + payload b₁)) 1
        else
          match rest with
          | [] => .bad .unexpectedEnd 1
          | b₂ :: rest =>
            if !isContinuation b₂ then .bad .invalidContinuation 1
            else if more = 1 then
              .char (ofCodePoint ((b.toNat % 16 * 64 + payload b₁) * 64 + payload b₂)) 2
            else
              match rest with
              | [] => .bad .unexpectedEnd 2
              | b₃ :: _ =>
                if !isContinuation b₃ then .bad .invalidContinuation 2
                else
                  .char
                    (ofCodePoint
                      (((b.toNat % 8 * 64 + payload b₁) * 64 + payload b₂) * 64 + payload b₃)) 3

/-- Decodes the bytes from offset `pos` on, or gives the first failure. -/
def decodeFrom (surrogates : Bool) (pos : Nat) : List UInt8 → Except Failure (List Char)
  | [] => .ok []
  | b :: rest =>
    match step surrogates b rest with
    | .char c more => (decodeFrom surrogates (pos + 1 + more) (rest.drop more)).map (c :: ·)
    | .bad reason more => .error { start := pos, length := 1 + more, first := b, reason }
termination_by bytes => bytes.length
decreasing_by
  rw [List.length_drop, List.length_cons]
  omega

/-- Decodes UTF-8, or gives the first failure. -/
def decode (bytes : List UInt8) : Except Failure (List Char) :=
  decodeFrom false 0 bytes

/-- Decodes UTF-8 with a replacement character for each failure. -/
def decodeLossy : List UInt8 → List Char
  | [] => []
  | b :: rest =>
    match step false b rest with
    | .char c more => c :: decodeLossy (rest.drop more)
    | .bad _ more => Char.ofNat 0xFFFD :: decodeLossy (rest.drop more)
termination_by bytes => bytes.length
decreasing_by
  all_goals
    rw [List.length_drop, List.length_cons]
    omega

def encode (s : String) : List UInt8 :=
  s.toUTF8.toList

def Reason.text : Reason → String
  | .invalidStart => "invalid start byte"
  | .invalidContinuation => "invalid continuation byte"
  | .unexpectedEnd => "unexpected end of data"

/-- A byte as two hexadecimal digits. -/
def hexByte (b : UInt8) : String :=
  let digit (n : Nat) : Char := (Nat.toDigits 16 n).headD '0'
  String.ofList [digit (b.toNat / 16), digit (b.toNat % 16)]

/-- The wording of a failure: a single byte is shown, several are located. -/
def Failure.message (f : Failure) : String :=
  let place :=
    if f.length = 1 then s!"byte 0x{hexByte f.first} in position {f.start}"
    else s!"bytes in position {f.start}-{f.start + f.length - 1}"
  s!"'utf-8' codec can't decode {place}: {f.reason.text}"

end SignatureSearch.Text.Utf8
