/-
# `Url.Punycode` — texts in letters, digits and hyphens

The basic characters of a text come first.  The others follow in the order of
their code points, each as the distance from the one before, in digits of base
36 whose thresholds adapt to the distances seen so far.

`decode` gives code points and not characters, since nothing keeps an encoded
text from naming code points that are no characters.
-/
import SignatureSearch.Text.Search

namespace SignatureSearch.Url.Punycode

def digit (d : Nat) : Char :=
  if d < 26 then Char.ofNat (0x61 + d) else Char.ofNat (0x30 + d - 26)

/-- The value of a digit, in lower or upper case. -/
def value? (c : Char) : Option Nat :=
  if c.isLower then some (c.toNat - 0x61)
  else if c.isUpper then some (c.toNat - 0x41)
  else if c.isDigit then some (c.toNat - 0x30 + 26)
  else none

def threshold (place bias : Nat) : Nat :=
  if place ≤ bias then 1 else if bias + 26 ≤ place then 26 else place - bias

theorem threshold_pos (place bias : Nat) : 1 ≤ threshold place bias := by
  unfold threshold
  split
  · omega
  · split <;> omega

/-- Divides a distance by 35 until it is at most 455, and adds 36 for every division. -/
def shrink (delta bias : Nat) : Nat × Nat :=
  if 455 < delta then shrink (delta / 35) (bias + 36) else (delta, bias)
termination_by delta
decreasing_by exact Nat.div_lt_self (by omega) (by omega)

/-- The bias after a distance, when so many characters are written. -/
def adapt (delta written : Nat) (first : Bool) : Nat :=
  let halved := if first then delta / 700 else delta / 2
  let (rest, bias) := shrink (halved + halved / written) 0
  bias + 36 * rest / (rest + 38)

/-- A distance in digits, from a place on. -/
def digits (bias place q : Nat) : List Char :=
  let t := threshold place bias
  if q < t then [digit q]
  else digit (t + (q - t) % (36 - t)) :: digits bias (place + 36) ((q - t) / (36 - t))
termination_by q
decreasing_by
  have := threshold_pos place bias
  calc (q - threshold place bias) / (36 - threshold place bias)
      ≤ q - threshold place bias := Nat.div_le_self _ _
    _ < q := by omega

/-! ## Encoding -/

/-- What is written so far, and the distance from the last character. -/
structure Progress where
  out : List Char
  delta : Nat
  bias : Nat
  written : Nat

/-- Passes one character of the text while the characters of code point `m` are written. -/
def pass (basic m : Nat) (p : Progress) (c : Char) : Progress :=
  if c.toNat < m then { p with delta := p.delta + 1 }
  else if c.toNat = m then
    { out := p.out ++ digits p.bias 36 p.delta
      delta := 0
      bias := adapt p.delta (p.written + 1) (p.written = basic)
      written := p.written + 1 }
  else p

/-- Writes the characters of the given code points, which ascend, from code point `n` on. -/
def extend (text : List Char) (basic : Nat) : List Nat → Nat → Progress → Progress
  | [], _, p => p
  | m :: rest, n, p =>
    let p := { p with delta := p.delta + (m - n) * (p.written + 1) }
    let p := text.foldl (pass basic m) p
    extend text basic rest (m + 1) { p with delta := p.delta + 1 }

def encode (text : List Char) : List Char :=
  let basic := text.filter (·.toNat < 0x80)
  let others := (text.filter (0x80 ≤ ·.toNat)).map Char.toNat
  let ascending := others.eraseDups.mergeSort (fun a b => decide (a ≤ b))
  let start : Progress := ⟨[], 0, 72, basic.length⟩
  basic ++ (if basic.isEmpty then [] else ['-'])
    ++ (extend text basic.length ascending 128 start).out

/-! ## Decoding -/

/-- Reads a distance from a place on, where a digit counts `weight` times and `sum` is read so far.
Gives also what follows the last digit. -/
def readDistance (bias : Nat) : Nat → Nat → Nat → List Char → Option (Nat × List Char)
  | _, _, _, [] => none
  | place, weight, sum, c :: rest => do
    let d ← value? c
    let t := threshold place bias
    if d < t then return (sum + d * weight, rest)
    readDistance bias (place + 36) (weight * (36 - t)) (sum + d * weight) rest

theorem length_readDistance {bias place weight sum distance : Nat} {text rest : List Char}
    (h : readDistance bias place weight sum text = some (distance, rest)) :
    rest.length < text.length := by
  induction text generalizing place weight sum with
  | nil => simp [readDistance] at h
  | cons c text ih =>
    cases hd : value? c with
    | none => simp [readDistance, hd] at h
    | some d =>
      simp only [readDistance, hd, Option.bind_eq_bind, Option.bind_some] at h
      split at h
      · simp only [Option.pure_def, Option.some.injEq, Prod.mk.injEq] at h
        simp [h.2]
      · exact Nat.lt_succ_of_lt (ih h)

def lastPoint : Nat := 0x10FFFF

/-- Puts the code points whose distances follow into a text.  `point` is the last one and `position`
the place after it. -/
def insertAll (text : List Nat) (point position bias : Nat) (first : Bool) (code : List Char) :
    Option (List Nat) :=
  match code with
  | [] => some text
  | c :: code =>
    match h : readDistance bias 36 1 0 (c :: code) with
    | none => none
    | some (distance, rest) =>
      let size := text.length + 1
      let point := point + (position + distance) / size
      let position := (position + distance) % size
      if point > lastPoint then none
      else
        insertAll (text.take position ++ point :: text.drop position) point (position + 1)
          (adapt distance size first) false rest
termination_by code.length
decreasing_by exact length_readDistance h

/-- The basic characters of an encoded text, which stand before its last hyphen, and the distances
after it.  A hyphen with nothing before it does not count. -/
def halves (code : List Char) : List Char × List Char :=
  match Text.cutChar '-' code.reverse with
  | none | some (_, []) => ([], code)
  | some (distances, basic) => (basic.reverse, distances.reverse)

/-- The code points of an encoded text. -/
def decode (code : List Char) : Option (List Nat) :=
  let (basic, distances) := halves code
  insertAll (basic.map Char.toNat) 128 0 72 true distances

end SignatureSearch.Url.Punycode
