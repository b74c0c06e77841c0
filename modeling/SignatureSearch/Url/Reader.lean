/-
# `Url.Reader` — reading addresses

A text is cut into its parts at their marks, whatever it is.  Then the parts
are checked and brought into the form in which they are sent: a port that the
scheme implies is dropped, and so are dots as segments of a path that belongs
to a scheme or a host.
-/
import SignatureSearch.Url.Host

namespace SignatureSearch.Url

structure Parts where
  scheme : List Char := []
  authority : List Char := []
  path : List Char := []
  query : Option (List Char) := none
  fragment : Option (List Char) := none
deriving DecidableEq, Repr

/-- What stands before the first of a mark, and what stands after it. -/
def cutAt (mark : Char) (cs : List Char) : List Char × Option (List Char) :=
  match Text.cutChar mark cs with
  | some (before, after) => (before, some after)
  | none => (cs, none)

def isScheme : List Char → Bool
  | c :: rest =>
    c.isAlpha && rest.all fun c => c.isAlphanum || c = '+' || c = '-' || c = '.'
  | [] => true

def Parts.ofChars (cs : List Char) : Parts :=
  let (cs, fragment) := cutAt '#' cs
  let (cs, query) := cutAt '?' cs
  let (scheme, cs) : List Char × List Char :=
    match Text.cutChar ':' cs with
    | some (before, after) => if isScheme before then (before, after) else ([], cs)
    | none => ([], cs)
  match cs with
  | '/' :: '/' :: rest =>
    ⟨scheme, rest.takeWhile (· != '/'), rest.dropWhile (· != '/'), query, fragment⟩
  | cs => ⟨scheme, [], cs, query, fragment⟩

/-! ## The authority -/

/-- What stands before and after the last of a mark; without a mark nothing stands before it. -/
def cutAtLast (mark : Char) (cs : List Char) : List Char × List Char :=
  match Text.cutChar mark cs.reverse with
  | some (after, before) => (before.reverse, after.reverse)
  | none => ([], cs)

/-- The host that a text starts with, and what follows it: in brackets, or else up to a colon. -/
def cutHost (cs : List Char) : List Char × List Char :=
  let bracketed := (cs.reverse.dropWhile (· != ']')).reverse
  if cs.head? = some '[' && !bracketed.isEmpty then (bracketed, cs.drop bracketed.length)
  else (cs.takeWhile (· != ':'), cs.dropWhile (· != ':'))

/-- The user, the host and the port of an authority. -/
def cutAuthority (cs : List Char) : List Char × List Char × List Char :=
  let (user, rest) := cutAtLast '@' cs
  let (host, port) := cutHost rest
  (user, host, if port.head? = some ':' then port.drop 1 else port)

/-- The ports that schemes imply. -/
def impliedPorts : List (String × Int) :=
  [("ftp", 21), ("http", 80), ("https", 443), ("ws", 80), ("wss", 443)]

/-- The port, if one is named that the scheme does not imply.  The scheme counts as it is
written. -/
def portForm (scheme port : List Char) : Except Error (Option Int) :=
  if port.isEmpty then .ok none
  else
    match Text.readInteger? (String.ofList port) with
    | none => .error (.port (String.ofList port))
    | some n => .ok (if impliedPorts.lookup (String.ofList scheme) = some n then none else some n)

/-! ## The path -/

/-- Whether a path may follow what stands before it. -/
def checkPath (hasScheme hasAuthority : Bool) (path : List Char) : Except Error Unit :=
  if hasAuthority then
    if path.isEmpty || path.head? = some '/' then .ok () else .error .unrooted
  else if hasScheme then .ok ()
  else
    match path with
    | '/' :: '/' :: _ => .error .doubleSlash
    | ':' :: _ => .error .colon
    | _ => .ok ()

/-- Takes the segments of a path one by one, where a dot stays and two dots lead back, but not
beyond the root. -/
def climb (found : List (List Char)) : List Char → List (List Char)
  | ['.'] => found
  | ['.', '.'] => if found = [[]] then found else found.dropLast
  | segment => found ++ [segment]

/-- A path without dots as segments. -/
def withoutDots (path : List Char) : List Char :=
  ['/'].intercalate ((Text.splitOn '/' path).foldl climb [])

/-! ## The whole -/

def ofParts (p : Parts) : Except Error Url := do
  let (user, host, port) := cutAuthority p.authority
  let user := Text.Percent.encode inUser user
  let host ← hostForm host
  let port ← portForm p.scheme port
  let hasAuthority := !user.isEmpty || !host.isEmpty || port.isSome
  checkPath (!p.scheme.isEmpty) hasAuthority p.path
  let path := if !p.scheme.isEmpty || hasAuthority then withoutDots p.path else p.path
  return {
    scheme := p.scheme.map Char.toLower, user, host, port
    path := Text.Percent.encode inPath path
    query := p.query.map (Text.Percent.encode inQuery)
    fragment := p.fragment.map (Text.Percent.encode inFragment) }

/-- No address, and no part of one, is longer. -/
def longest : Nat := 65536

def isControl (c : Char) : Bool :=
  c.toNat < 32 || c.toNat = 127

/-- Refuses a text, or a named part, that is too long or holds a control character. -/
def checkText (part : Option String) (cs : List Char) : Except Error Unit :=
  if cs.length > longest then .error (.tooLong part)
  else
    match cs.dropWhile (!isControl ·) with
    | c :: _ => .error (.control part c (cs.takeWhile (!isControl ·)).length)
    | [] => .ok ()

/-- Reads an address or a reference. -/
def ofChars (cs : List Char) : Except Error Url := do
  checkText none cs
  ofParts (.ofChars cs)

/-- The address of parts that were put together from others. -/
def assemble (p : Parts) : Except Error Url := do
  checkText (some "scheme") p.scheme
  checkText (some "authority") p.authority
  checkText (some "path") p.path
  checkText (some "query") (p.query.getD [])
  checkText (some "fragment") (p.fragment.getD [])
  ofParts p

def parts (u : Url) : Parts :=
  ⟨u.scheme, u.authority, u.path, u.query, u.fragment⟩

end SignatureSearch.Url
