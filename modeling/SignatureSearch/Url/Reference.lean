/-
# `Url.Reference` — references between addresses

A reference is joined with the address where it was found.  `ofRequest` is the
address that a request is sent to, and `redirect` the one that an answer leads
to: a reference with a scheme but no host takes the host of the request, and a
fragment stays with the request until an answer gives another one.
-/
import SignatureSearch.Url.Reader

namespace SignatureSearch.Url

/-! ## Joining -/

/-- The schemes whose addresses have parts that references can leave out. -/
def hierarchicalSchemes : List String :=
  ["", "ftp", "http", "gopher", "nntp", "imap", "wais", "file", "https", "shttp", "mms",
   "prospero", "rtsp", "rtspu", "sftp", "svn", "svn+ssh", "ws", "wss"]

/-- The schemes whose last segment may have parameters. -/
def parameterSchemes : List String :=
  ["", "ftp", "hdl", "prospero", "http", "imap", "https", "shttp", "rtsp", "rtspu", "sip", "sips",
   "mms", "sftp", "tel"]

/-- A path and the parameters of its last segment. -/
def cutParameters (scheme path : List Char) : List Char × List Char :=
  let last := (path.reverse.takeWhile (· != '/')).reverse
  match parameterSchemes.contains (String.ofList scheme), Text.cutChar ';' last with
  | true, some (before, parameters) =>
    (path.take (path.length - last.length) ++ before, parameters)
  | _, _ => (path, [])

/-- Takes the segments of a joined path one by one, where a dot stays and two dots lead back. -/
def walk (found : List (List Char)) : List Char → List (List Char)
  | ['.'] => found
  | ['.', '.'] => found.dropLast
  | segment => found ++ [segment]

/-- The segments of a path that does not start at the root, after those of the base; inside, empty
segments do not count. -/
def joinSegments (base path : List Char) : List (List Char) :=
  let start := Text.splitOn '/' base
  let start := if start.getLast? = some [] then start else start.dropLast
  let all := start ++ Text.splitOn '/' path
  match all, all.getLast? with
  | first :: _ :: _, some last =>
    first :: ((all.drop 1).dropLast.filter (!·.isEmpty)) ++ [last]
  | _, _ => all

/-- The path of a reference against that of the base.  It is not empty. -/
def joinPaths (base path : List Char) : List Char :=
  let segments :=
    if path.head? = some '/' then Text.splitOn '/' path else joinSegments base path
  let found := segments.foldl walk []
  let closing : List (List Char) :=
    match segments.getLast? with
    | some ['.'] | some ['.', '.'] => [[]]
    | _ => []
  let joined := ['/'].intercalate (found ++ closing)
  if joined.isEmpty then ['/'] else joined

def withParameters (path parameters : List Char) : List Char :=
  if parameters.isEmpty then path else path ++ ';' :: parameters

def nonEmpty? (part : Option (List Char)) : Option (List Char) :=
  part.filter (!·.isEmpty)

/-- The characters of parts that were joined; empty queries and fragments are left out. -/
def writeParts (p : Parts) : List Char :=
  let rooted := if p.path.isEmpty || p.path.head? = some '/' then p.path else '/' :: p.path
  let start :=
    if p.authority.isEmpty && (p.scheme.isEmpty || ['/', '/'].isPrefixOf p.path) then p.path
    else '/' :: '/' :: p.authority ++ rooted
  (if p.scheme.isEmpty then [] else p.scheme ++ [':']) ++ start
    ++ marked '?' (nonEmpty? p.query) ++ marked '#' (nonEmpty? p.fragment)

/-- The characters that a reference leads to from a base. -/
def joinChars (base reference : List Char) : List Char :=
  if base.isEmpty then reference
  else if reference.isEmpty then base
  else
    let b := Parts.ofChars base
    let r := Parts.ofChars reference
    let scheme := if r.scheme.isEmpty then b.scheme else r.scheme
    if scheme ≠ b.scheme || !hierarchicalSchemes.contains (String.ofList scheme) then reference
    else
      let (path, parameters) := cutParameters scheme r.path
      let (basePath, baseParameters) := cutParameters scheme b.path
      if !r.authority.isEmpty then
        writeParts { r with scheme, path := withParameters path parameters }
      else if path.isEmpty && parameters.isEmpty then
        writeParts { r with
          scheme, authority := b.authority, path := withParameters basePath baseParameters
          query := (nonEmpty? r.query).or b.query }
      else
        let path := withParameters (joinPaths basePath path) parameters
        writeParts { r with scheme, authority := b.authority, path }

/-- The address that a reference leads to from a base. -/
def join (base reference : Url) : Except Error Url :=
  ofChars (joinChars base.chars reference.chars)

/-- What stands between the first two brackets of an address, if it ends with the mark of a zone.
The zone itself is cut off then, since it starts with a bracket. -/
def cutZone? (u : Url) : Option String :=
  if u.host.contains ':' then
    let inside := u.host.takeWhile (· != ']')
    if inside.getLast? = some '%' then some (String.ofList inside) else none
  else none

/-! ## Requests and redirects -/

/-- The address that a request is sent to.  Of one without a scheme or a host only the path and the
query are sent. -/
def ofRequest (address : String) : Except Error Url := do
  let u ← ofChars address.toList
  if u.isAbsolute then return u
  assemble { path := '/' :: u.path.dropWhile (· == '/'), query := u.query }

/-- Whether an address, up to the last mark of a fragment, starts with a type: some characters
before a colon, and no slash among them. -/
def isTyped (u : Url) : Bool :=
  let start := (Text.cutChar '#' u.chars.reverse).elim u.chars (·.2.reverse)
  match start.dropWhile fun c => c ≠ '/' && c ≠ ':' with
  | ':' :: _ => start.head? ≠ some ':'
  | _ => false

/-- The text of an address, without a mark at its end after which no fragment follows. -/
def shownText (u : Url) : String :=
  String.ofList (if u.chars.getLast? = some '#' then u.chars.dropLast else u.chars)

def withHost (u : Url) (host : List Char) : Except Error Url :=
  assemble { u with host }.parts

def plainFragment (u : Url) : List Char :=
  Text.Percent.decode (u.fragment.getD [])

/-- Why an answer cannot redirect a request. -/
inductive RedirectError where
  /-- The answer names no address. -/
  | location (error : Error)
  /-- What it names leads to no address from where the request was sent. -/
  | target (error : Error)
  /-- The name of the host cannot be decoded. -/
  | host (error : LabelError)
  /-- The zone of the host is cut off. -/
  | zone (text : String)
deriving DecidableEq, Repr

/-- What a location names: one with a scheme and no host takes the host of the request. -/
def located (base u : Url) : Except RedirectError Url := do
  if u.scheme.isEmpty then return u
  let host ← u.plainHost.mapError .host
  if host.isEmpty then (u.withHost (← base.plainHost.mapError .host)).mapError .target
  else return u

/-- Where an answer with the given location leads from the address of a request. -/
def redirect (base : Url) (location : String) : Except RedirectError Url := do
  let u ← located base (← (ofChars location.toList).mapError .location)
  let u ←
    if u.isAbsolute then pure u
    else
      match u.cutZone? with
      | some address => throw (.zone address)
      | none => (base.join u).mapError .target
  let u ←
    if !base.plainFragment.isEmpty && u.plainFragment.isEmpty then
      (assemble { u.parts with fragment := some base.plainFragment }).mapError .target
    else pure u
  let _ ← u.plainHost.mapError .host
  return u

end SignatureSearch.Url
