/-
# `Url.Name` — names of hosts

A name is a row of labels with points between them, perhaps with a point at its
end.  A label with characters beyond ASCII is sent in an encoded form, which
starts with a sign of its own.
-/
import SignatureSearch.Url.Label
import SignatureSearch.Url.Punycode

namespace SignatureSearch.Url

/-- The points that divide a name into labels. -/
def isLabelPoint (c : Char) : Bool :=
  c = '.' || c.toNat = 0x3002 || c.toNat = 0xFF0E || c.toNat = 0xFF61

/-- The labels of a name, and whether a point stands at its end. -/
def labelsOf (name : List Char) : List (List Char) × Bool :=
  let labels := Text.splitOn '.' (name.map fun c => if isLabelPoint c then '.' else c)
  if labels.getLast? = some [] then (labels.dropLast, true) else (labels, false)

def nameOf (labels : List (List Char)) (closed : Bool) : List Char :=
  ['.'].intercalate labels ++ if closed then ['.'] else []

def encodedMark : List Char := "xn--".toList

def longestLabel : Nat := 63

/-- No name without a point at its end is longer. -/
def longestName : Nat := 253

/-- The code points of a label in ASCII, which is decoded if it is an encoded one. -/
def decodeLabel (label : List Char) : Except LabelError (List Nat) := do
  let label := label.map Char.toLower
  let points ←
    if encodedMark.isPrefixOf label then
      let code := label.drop encodedMark.length
      if code.isEmpty then throw .nothingEncoded
      else if code.getLast? = some '-' then throw .encodedHyphen
      else
        match Punycode.decode code with
        | some points => pure points
        | none => throw .undecodable
    else pure (label.map Char.toNat)
  checkLabel points
  return points

def encodeLabel (label : List Char) : Except LabelError (List Char) := do
  let written ←
    if label.all (·.toNat < 128) then do
      let _ ← decodeLabel label
      pure label
    else do
      checkLabel (label.map Char.toNat)
      pure (encodedMark ++ Punycode.encode label)
  if written.length > longestLabel then throw .tooLong else return written

def encodeName (name : List Char) : Except LabelError (List Char) := do
  if name.length > longestName + 1 then throw .nameTooLong
  let (labels, closed) := labelsOf name
  let written := nameOf (← labels.mapM encodeLabel) closed
  if written.length > longestName + closed.toNat then throw .nameTooLong else return written

/-- The name that is sent in the given form. -/
def decodeName (name : List Char) : Except LabelError (List Char) := do
  if name.length > longestName + 1 then throw .nameTooLong
  let (labels, closed) := labelsOf name
  let decoded ← labels.mapM decodeLabel
  return nameOf (decoded.map (·.map Char.ofNat)) closed

end SignatureSearch.Url
