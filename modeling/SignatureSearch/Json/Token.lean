/-
# `Json.Token` — tokens of the JSON format

Blank are the space, the tab, the line feed and the carriage return only.
Beside the numbers of the format, `NaN`, `Infinity` and `-Infinity` are read.
A number is an integer unless it has a fraction or an exponent; a text holds
no raw control character.  What is no token stands as one at the end, so that
the tokens before it are seen first.
-/
import SignatureSearch.Json
import SignatureSearch.Text.Encoding
import SignatureSearch.Text.Numeral
import SignatureSearch.Text.Percent

namespace SignatureSearch.Json

/-- A mark of the format or a value without parts. -/
inductive Token where
  | leftBracket
  | rightBracket
  | leftBrace
  | rightBrace
  | comma
  | colon
  | value (v : Json)
  /-- A place where no token starts. -/
  | unreadable
deriving DecidableEq, Repr

namespace Token

/-- Characters between tokens. -/
def isGap (c : Char) : Bool :=
  c = ' ' || c = '\t' || c = '\n' || c = '\r'

def mark? (c : Char) : Option Token :=
  match c.toNat with
  | 0x5B => some .leftBracket
  | 0x5D => some .rightBracket
  | 0x7B => some .leftBrace
  | 0x7D => some .rightBrace
  | 0x2C => some .comma
  | 0x3A => some .colon
  | _ => none

/-- The code point of an escape of one letter. -/
def escape? (c : Char) : Option Nat :=
  match c with
  | '"' => some 0x22
  | '\\' => some 0x5C
  | '/' => some 0x2F
  | 'b' => some 8
  | 'f' => some 12
  | 'n' => some 10
  | 'r' => some 13
  | 't' => some 9
  | _ => none

/-- The number that four hexadecimal digits denote. -/
def hex4? (a b c d : Char) : Option Nat := do
  return (((← Text.hexDigit? a) * 16 + (← Text.hexDigit? b)) * 16 + (← Text.hexDigit? c)) * 16 +
    (← Text.hexDigit? d)

/-- The inside of a text after its opening quote, as code points with the two halves of a surrogate
pair apart, and what follows the closing quote. -/
def text? : List Char → Option (List Nat × List Char)
  | [] => none
  | '"' :: rest => some ([], rest)
  | '\\' :: 'u' :: a :: b :: c :: d :: rest =>
    match hex4? a b c d, text? rest with
    | some n, some (units, rest') => some (n :: units, rest')
    | _, _ => none
  | '\\' :: c :: rest =>
    match escape? c, text? rest with
    | some n, some (units, rest') => some (n :: units, rest')
    | _, _ => none
  | c :: rest =>
    if c.toNat < 32 then none
    else (text? rest).map fun (units, rest') => (c.toNat :: units, rest')

theorem length_of_text? {cs rest : List Char} {units : List Nat}
    (h : text? cs = some (units, rest)) : rest.length < cs.length := by
  fun_induction text? cs generalizing units rest <;>
    simp_all only [Option.map_eq_some_iff, Prod.mk.injEq, Prod.exists, Option.some.injEq,
      List.length_cons, reduceCtorEq]
  case case2 => omega
  case case3 ih =>
    have := ih ⟨rfl, rfl⟩
    omega
  case case5 ih =>
    have := ih ⟨rfl, rfl⟩
    omega
  case case8 ih =>
    obtain ⟨u, r, hr, _, rfl⟩ := h
    have := ih hr
    omega

/-- The fraction that `cs` starts with: its digits and what follows. -/
def fraction (cs : List Char) : List Char × List Char :=
  match cs with
  | '.' :: rest =>
    if (rest.takeWhile Char.isDigit).isEmpty then ([], cs)
    else (rest.takeWhile Char.isDigit, rest.dropWhile Char.isDigit)
  | _ => ([], cs)

/-- The sign that `cs` starts with, and what follows it. -/
def sign (cs : List Char) : Bool × List Char :=
  match cs with
  | '-' :: rest => (true, rest)
  | '+' :: rest => (false, rest)
  | rest => (false, rest)

/-- The exponent that `cs` starts with and what follows. -/
def exponent (cs : List Char) : Option Int × List Char :=
  match cs with
  | e :: rest =>
    if e = 'e' || e = 'E' then
      let digits := (sign rest).2.takeWhile Char.isDigit
      if digits.isEmpty then (none, cs)
      else
        let n : Int := Text.ofDigits (digits.filterMap Text.asciiDigitValue?)
        (some (if (sign rest).1 then -n else n), (sign rest).2.dropWhile Char.isDigit)
    else (none, cs)
  | [] => (none, [])

/-- The number with this sign whose integer part is `whole` and whose further parts `rest` starts
with. -/
def number (negative : Bool) (whole rest : List Char) : Token × List Char :=
  let (fractionDigits, afterFraction) := fraction rest
  let (power?, afterPower) := exponent afterFraction
  let digits (ds : List Char) : Nat := Text.ofDigits (ds.filterMap Text.asciiDigitValue?)
  if fractionDigits.isEmpty && power?.isNone then
    let n : Int := digits whole
    (.value (.int (if negative then -n else n)), afterPower)
  else
    let shift := power?.getD 0 - fractionDigits.length
    let x := Binary64.ofDecimal negative (digits (whole ++ fractionDigits)) shift
    (.value (.float x), afterPower)

/-- The number that starts with the digit `c`: a leading zero stands alone. -/
def numberFrom (negative : Bool) (c : Char) (rest : List Char) : Token × List Char :=
  if c = '0' then number negative ['0'] rest
  else number negative (c :: rest.takeWhile Char.isDigit) (rest.dropWhile Char.isDigit)

/-- The negative number whose sign comes before `cs`, and what follows it. -/
def negative? (cs : List Char) : Option (Token × List Char) :=
  match cs with
  | 'I' :: 'n' :: 'f' :: 'i' :: 'n' :: 'i' :: 't' :: 'y' :: rest =>
    some (.value (.float (.infinite true)), rest)
  | d :: rest => if d.isDigit then some (numberFrom true d rest) else none
  | [] => none

/-- The value without parts that starts with `c`, and what follows it. -/
def scalar? (c : Char) (rest : List Char) : Option (Token × List Char) :=
  if c = '"' then
    (text? rest).map fun (units, rest) =>
      (.value (.str (String.ofList (Text.Encoding.ofUnits16 units))), rest)
  else if c.isDigit then some (numberFrom false c rest)
  else
    match c, rest with
    | 'n', 'u' :: 'l' :: 'l' :: rest => some (.value .null, rest)
    | 't', 'r' :: 'u' :: 'e' :: rest => some (.value (.bool true), rest)
    | 'f', 'a' :: 'l' :: 's' :: 'e' :: rest => some (.value (.bool false), rest)
    | 'N', 'a' :: 'N' :: rest => some (.value (.float .nan), rest)
    | 'I', 'n' :: 'f' :: 'i' :: 'n' :: 'i' :: 't' :: 'y' :: rest =>
      some (.value (.float (.infinite false)), rest)
    | '-', rest => negative? rest
    | _, _ => none

theorem length_fraction (cs : List Char) : (fraction cs).2.length ≤ cs.length := by
  unfold fraction
  split
  · rename_i rest
    split
    · simp
    · have := (List.dropWhile_sublist (l := rest) Char.isDigit).length_le
      simp only [List.length_cons]
      omega
  · simp

theorem length_sign (cs : List Char) : (sign cs).2.length ≤ cs.length := by
  unfold sign
  split <;> simp

theorem length_exponent (cs : List Char) : (exponent cs).2.length ≤ cs.length := by
  unfold exponent
  split
  · rename_i e rest
    have h₁ := length_sign rest
    have h₂ := (List.dropWhile_sublist (l := (sign rest).2) Char.isDigit).length_le
    split
    · simp only
      split
      · simp
      · simp only [List.length_cons]
        omega
    · simp
  · simp

theorem length_number (negative : Bool) (whole rest : List Char) :
    (number negative whole rest).2.length ≤ rest.length := by
  have h₁ := length_fraction rest
  have h₂ := length_exponent (fraction rest).2
  unfold number
  simp only
  split
  · split <;> (simp only; omega)
  · simp only
    omega

theorem length_numberFrom (negative : Bool) (c : Char) (rest : List Char) :
    (numberFrom negative c rest).2.length ≤ rest.length := by
  unfold numberFrom
  split
  · exact length_number ..
  · exact Nat.le_trans (length_number ..) (List.dropWhile_sublist _).length_le

theorem length_of_negative? {cs rest : List Char} {t : Token}
    (h : negative? cs = some (t, rest)) : rest.length ≤ cs.length := by
  unfold negative? at h
  split at h
  · simp only [Option.some.injEq, Prod.mk.injEq] at h
    obtain ⟨_, rfl⟩ := h
    simp only [List.length_cons]
    omega
  · rename_i d tail _
    have := length_numberFrom true d tail
    split at h
    · simp only [Option.some.injEq] at h
      rw [h] at this
      simp only [List.length_cons]
      simp only at this
      omega
    · simp at h
  · simp at h

theorem length_of_scalar? {c : Char} {rest rest' : List Char} {t : Token}
    (h : scalar? c rest = some (t, rest')) : rest'.length ≤ rest.length := by
  unfold scalar? at h
  split at h
  · simp only [Option.map_eq_some_iff, Prod.mk.injEq, Prod.exists] at h
    obtain ⟨u, r, hr, _, rfl⟩ := h
    exact Nat.le_of_lt (length_of_text? hr)
  · split at h
    · have := length_numberFrom false c rest
      simp only [Option.some.injEq] at h
      rw [h] at this
      exact this
    · split at h
      case h_6 => exact length_of_negative? h
      case h_7 => simp at h
      all_goals
        simp only [Option.some.injEq, Prod.mk.injEq] at h
        obtain ⟨_, rfl⟩ := h
        simp only [List.length_cons]
        omega

/-- The tokens of a text, up to a place where no token starts. -/
def scan : List Char → List Token
  | [] => []
  | c :: rest =>
    if isGap c then scan rest
    else
      match mark? c with
      | some mark => mark :: scan rest
      | none =>
        match h : scalar? c rest with
        | some (t, rest') =>
          have := length_of_scalar? h
          t :: scan rest'
        | none => [.unreadable]
termination_by cs => cs.length

end Token
end SignatureSearch.Json
