/-
# `Url.Label` — labels of host names

A label is what stands between two points of a host name.  It is composed, has
hyphens inside only, starts with no mark, and holds only characters of names;
some signs may stand only beside certain others.  A label with letters that are
written to the left holds none that are written to the right, and the other
way round.
-/
import SignatureSearch.Text.Composition
import SignatureSearch.Text.Direction
import SignatureSearch.Text.Joining
import SignatureSearch.Text.Quoted
import SignatureSearch.Text.Script
import SignatureSearch.Url.NameChar

namespace SignatureSearch.Url

/-! ## Places in a label -/

/-- A code point of a label and what stands around it; of what stands before it, the nearest comes
first. -/
structure Place where
  before : List Nat
  point : Nat
  after : List Nat
deriving DecidableEq, Repr

/-- The whole label. -/
def Place.label (p : Place) : List Nat :=
  p.before.reverse ++ p.point :: p.after

/-- The position in the label, counted from one. -/
def Place.position (p : Place) : Nat :=
  p.before.length + 1

/-! ## Errors -/

/-- What is wrong with a label, or with the name that it stands in. -/
inductive LabelError where
  | empty
  | tooLong
  | notComposed
  /-- The third and the fourth character are hyphens. -/
  | innerHyphens
  /-- A hyphen stands at one end. -/
  | outerHyphen
  | leadingMark
  /-- An invisible joiner stands between letters that it does not concern. -/
  | joiner (place : Place)
  /-- A sign stands beside the wrong characters. -/
  | context (place : Place)
  | disallowed (place : Place)
  /-- A character has no direction. -/
  | noDirection (label : List Nat) (position : Nat)
  /-- A label with letters that are written to the left starts with no letter. -/
  | noFirstLetter (label : List Nat)
  /-- A letter that is written to the right follows one that is written to the left. -/
  | rightwardInside (position : Nat)
  /-- A letter that is written to the left follows one that is written to the right. -/
  | leftwardInside (position : Nat)
  | mixedDigits
  /-- A label with letters that are written to the left ends with no letter or digit. -/
  | lastDirection
  /-- Nothing follows the sign of an encoded label. -/
  | nothingEncoded
  | encodedHyphen
  /-- The label is not the encoded form of any text. -/
  | undecodable
  | nameTooLong
deriving DecidableEq, Repr

/-- Code points between quotes; those that are no characters are escaped. -/
def quotedPoints (label : List Nat) : String :=
  let quote := Text.quoteFor (label.map Char.ofNat)
  let written := label.flatMap fun n =>
    if n.isValidChar then Text.quoteChar quote (Char.ofNat n)
    else ['\\', 'u'] ++ Text.hexPadded 4 n
  String.ofList ([quote] ++ written ++ [quote])

def pointName (n : Nat) : String :=
  "U+" ++ String.ofList ((Text.hexPadded 4 n).map Char.toUpper)

def LabelError.message : LabelError → String
  | .empty => "Empty Label"
  | .tooLong => "Label too long"
  | .notComposed => "Label must be in Normalization Form C"
  | .innerHyphens => "Label has disallowed hyphens in 3rd and 4th position"
  | .outerHyphen => "Label must not start or end with a hyphen"
  | .leadingMark => "Label begins with an illegal combining character"
  | .joiner p =>
    s!"Unknown codepoint adjacent to joiner {pointName p.point} at position {p.position} "
      ++ s!"in {quotedPoints p.label}"
  | .context p =>
    s!"Codepoint {pointName p.point} not allowed at position {p.position} "
      ++ s!"in {quotedPoints p.label}"
  | .disallowed p =>
    s!"Codepoint {pointName p.point} at position {p.position} "
      ++ s!"of {quotedPoints p.label} not allowed"
  | .noDirection label position =>
    s!"Unknown directionality in label {quotedPoints label} at position {position}"
  | .noFirstLetter label =>
    s!"First codepoint in label {quotedPoints label} must be directionality L, R or AL"
  | .rightwardInside position =>
    s!"Invalid direction for codepoint at position {position} in a right-to-left label"
  | .leftwardInside position =>
    s!"Invalid direction for codepoint at position {position} in a left-to-right label"
  | .mixedDigits => "Can not mix numeral types in a right-to-left label"
  | .lastDirection => "Label ends with illegal codepoint directionality"
  | .nothingEncoded => "Malformed A-label, no Punycode eligible content found"
  | .encodedHyphen => "A-label must not end with a hyphen"
  | .undecodable => "Invalid A-label"
  | .nameTooLong => "Domain too long"

/-! ## Shape -/

def hyphen : Nat := 0x2D

/-- Checks what can be said of a label without a look at the single characters. -/
def checkShape (label : List Nat) : Except LabelError Unit :=
  if label.isEmpty then .error .empty
  else if !Text.isComposed label then .error .notComposed
  else if (label.drop 2).take 2 = [hyphen, hyphen] then .error .innerHyphens
  else if label.head? = some hyphen || label.getLast? = some hyphen then .error .outerHyphen
  else if label.head?.any Text.isMark then .error .leadingMark
  else .ok ()

/-! ## Characters -/

/-- The invisible joiners: the first one parts two letters and the second one joins them. -/
def isJoiner (n : Nat) : Bool :=
  n = 0x200C || n = 0x200D

/-- A joiner follows the sign that silences a vowel; the one that parts letters may also stand
between two that would be joined. -/
def Place.joinerFits (p : Place) : Bool :=
  match p.before with
  | [] => false
  | last :: _ =>
    let afterVirama := Text.combiningClass last = Text.viramaClass
    let joined := (p.before.dropWhile Text.isTransparent).head?.any Text.joinsOn
      && (p.after.dropWhile Text.isTransparent).head?.any Text.joinsBack
    !Text.isLater last && (afterVirama || (p.point = 0x200C && joined))

def isArabicDigit (n : Nat) : Bool :=
  0x660 ≤ n && n ≤ 0x669

/-- The decimal digits of the eastern forms of the Arabic script. -/
def isEasternDigit (n : Nat) : Bool :=
  0x6F0 ≤ n && n ≤ 0x6F9

def isJapanese (n : Nat) : Bool :=
  Text.Script.hiragana.contains n || Text.Script.katakana.contains n || Text.Script.han.contains n

/-- Signs that may stand beside certain characters only. -/
def isContextual (n : Nat) : Bool :=
  [0xB7, 0x375, 0x5F3, 0x5F4, 0x30FB].contains n || isArabicDigit n || isEasternDigit n

/-- The middle dot stands between two `l`, the Greek numeral sign before Greek, the Hebrew marks
after Hebrew, and the Japanese middle dot in a Japanese label; digits of the two Arabic forms do not
stand in one label. -/
def Place.signFits (p : Place) : Bool :=
  match p.point with
  | 0xB7 => p.before.head? = some 0x6C && p.after.head? = some 0x6C
  | 0x375 => p.after.head?.any Text.Script.greek.contains
  | 0x5F3 | 0x5F4 => p.before.head?.any Text.Script.hebrew.contains
  | 0x30FB => p.label.any isJapanese
  | n => !p.label.any (if isArabicDigit n then isEasternDigit else isArabicDigit)

def Place.check (p : Place) : Except LabelError Unit :=
  if isNameChar p.point then .ok ()
  else if isJoiner p.point then if p.joinerFits then .ok () else .error (.joiner p)
  else if isContextual p.point then if p.signFits then .ok () else .error (.context p)
  else .error (.disallowed p)

def checkPoints (before : List Nat) : List Nat → Except LabelError Unit
  | [] => .ok ()
  | n :: after => do
    Place.check ⟨before, n, after⟩
    checkPoints (n :: before) after

/-! ## Directions -/

/-- The directions of the characters from a position on. -/
def directions (label : List Nat) (position : Nat) : List Nat →
    Except LabelError (List Text.Direction)
  | [] => .ok []
  | n :: rest =>
    match Text.direction? n with
    | none => .error (.noDirection label position)
    | some d => do return d :: (← directions label (position + 1) rest)

/-- Checks a label that is written to the left from a position on; `digits` is the kind of digits
that it has before. -/
def checkLeftward (digits : Option Text.Direction) (position : Nat) : List Text.Direction →
    Except LabelError Unit
  | [] => .ok ()
  | d :: rest =>
    if d = .rightward then .error (.rightwardInside position)
    else if d.isDigit && digits.any (· ≠ d) then .error .mixedDigits
    else checkLeftward (if d.isDigit then some d else digits) (position + 1) rest

/-- Checks a label that is written to the right from a position on. -/
def checkRightward (position : Nat) : List Text.Direction → Except LabelError Unit
  | [] => .ok ()
  | d :: rest =>
    if d.isLeftward then .error (.leftwardInside position)
    else checkRightward (position + 1) rest

/-- The direction at the end of a label, where marks do not count. -/
def lastDirection? (ds : List Text.Direction) : Option Text.Direction :=
  (ds.reverse.dropWhile (· = .mark)).head?

/-- Checks the directions of a label, if any of it is written to the left. -/
def checkDirections (label : List Nat) : Except LabelError Unit := do
  let ds ← directions label 1 label
  if ds.any Text.Direction.isLeftward then
    match ds.head? with
    | some .leftward | some .arabic =>
      checkLeftward none 1 ds
      unless (lastDirection? ds).any fun d => d.isLeftward || d.isDigit do throw .lastDirection
    | some .rightward =>
      checkRightward 1 ds
      unless (lastDirection? ds).any fun d => d = .rightward || d.isDigit do throw .lastDirection
    | _ => throw (.noFirstLetter label)

/-! ## Labels -/

def checkLabel (label : List Nat) : Except LabelError Unit := do
  checkShape label
  checkPoints [] label
  checkDirections label

end SignatureSearch.Url
