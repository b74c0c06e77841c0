/-
# `Url.Host` — hosts

A host is an address of numbers, an address of hexadecimal groups in brackets,
or a name.  A name in ASCII is put in lower case and percent-encoded; in any
other name every label is checked and encoded.
-/
import SignatureSearch.Text.Case
import SignatureSearch.Text.Numeral
import SignatureSearch.Url
import SignatureSearch.Url.Name

namespace SignatureSearch.Url

/-! ## Addresses of numbers -/

/-- Four runs of digits with points between them. -/
def looksNumeric (host : List Char) : Bool :=
  let runs := Text.splitOn '.' host
  runs.length = 4 && runs.all fun run => !run.isEmpty && run.all Char.isDigit

/-- A number up to 255 without leading zeros. -/
def isOctet (cs : List Char) : Bool :=
  match Text.readPlain? cs with
  | some n => cs.all Char.isDigit && n ≤ 255
  | none => false

/-- Four numbers with points between them. -/
def isIPv4 (cs : List Char) : Bool :=
  let octets := Text.splitOn '.' cs
  octets.length = 4 && octets.all isOctet

/-! ## Addresses of hexadecimal groups -/

/-- One to four hexadecimal digits. -/
def isGroup (cs : List Char) : Bool :=
  !cs.isEmpty && cs.length ≤ 4 && cs.all fun c => (Text.hexDigit? c).isSome

/-- The groups, where an address of numbers in the last place counts for two. -/
def groups? (cs : List Char) : Option (List (List Char)) :=
  let parts := Text.splitOn ':' cs
  match parts.getLast? with
  | some last =>
    if parts.length < 3 then none
    else if last.contains '.' then
      if isIPv4 last then some (parts.dropLast ++ [['0'], ['0']]) else none
    else some parts
  | none => none

/-- Eight groups, or fewer with one gap between two colons in a row. -/
def isGrouped (parts : List (List Char)) : Bool :=
  let inner := (parts.drop 1).dropLast
  match inner.countP List.isEmpty with
  | 0 => parts.length = 8 && parts.all isGroup
  | 1 =>
    let before := parts.take (inner.takeWhile (!·.isEmpty)).length.succ
    let after := parts.drop (before.length + 1)
    let closed (groups : List (List Char)) : Bool := groups = [[]] || groups.all isGroup
    let written (groups : List (List Char)) : Nat := (groups.filter (!·.isEmpty)).length
    parts.length ≤ 9 && closed before && closed after && written before + written after ≤ 7
  | _ => false

/-- Hexadecimal groups, perhaps with a zone after a percent sign. -/
def isIPv6 (cs : List Char) : Bool :=
  let (address, zone) :=
    match Text.cutChar '%' cs with
    | some (address, zone) => (address, some zone)
    | none => (cs, none)
  let zoned := zone.all fun zone => !zone.isEmpty && !zone.contains '%'
  zoned && (groups? address).any isGrouped

/-! ## Hosts -/

/-- A host in the form in which it is sent. -/
def hostForm (host : List Char) : Except Error (List Char) :=
  if host.isEmpty then .ok []
  else if looksNumeric host then
    if isIPv4 host then .ok host else .error (.ipv4 (String.ofList host))
  else if host.head? = some '[' && host.length ≥ 2 && host.getLast? = some ']' then
    let inside := (host.drop 1).dropLast
    if isIPv6 inside then .ok inside else .error (.ipv6 (String.ofList host))
  else if host.all (·.toNat < 128) then
    .ok (Text.Percent.encode inHost (host.map Char.toLower))
  else
    match encodeName (Text.lower (String.ofList host)).toList with
    | .ok name => .ok name
    | .error _ => .error (.name (String.ofList host))

/-- The host of an address as people read it: an encoded name is decoded. -/
def plainHost (u : Url) : Except LabelError (List Char) :=
  if encodedMark.isPrefixOf u.host then decodeName u.host else .ok u.host

end SignatureSearch.Url
