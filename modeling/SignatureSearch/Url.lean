/-
# `Url` — addresses

An address has a scheme, an authority (user, host and port), a path, a query
and a fragment.  The parts are kept in the form in which they are sent: scheme
and host in lower case, without a port that the scheme implies, and with every
character percent-encoded that may not stand in its part.
-/
import SignatureSearch.Text.Percent

namespace SignatureSearch

/-- An address, or a reference that leaves out the first parts of one.  An empty scheme or host is
left out; a query or fragment may be empty and still be there. -/
structure Url where
  scheme : List Char := []
  user : List Char := []
  host : List Char := []
  port : Option Int := none
  path : List Char := []
  query : Option (List Char) := none
  fragment : Option (List Char) := none
deriving DecidableEq, Repr

namespace Url

/-- Why a text is no address. -/
inductive Error where
  /-- The text, or the named part of an address, is too long. -/
  | tooLong (part : Option String)
  /-- The text, or the named part of an address, holds a control character. -/
  | control (part : Option String) (c : Char) (position : Nat)
  | port (text : String)
  | ipv4 (host : String)
  | ipv6 (host : String)
  | name (host : String)
  /-- The path after an authority does not start with a slash. -/
  | unrooted
  /-- The path of a reference looks like an authority. -/
  | doubleSlash
  /-- The path of a reference looks like the end of a scheme. -/
  | colon
deriving DecidableEq, Repr

def Error.message : Error → String
  | .tooLong none => "URL too long"
  | .tooLong (some part) => s!"URL component '{part}' too long"
  | .control part c position =>
    let place := part.elim "URL" fun part => s!"URL {part} component"
    s!"Invalid non-printable ASCII character in {place}, {Text.quoted (String.ofList [c])} "
      ++ s!"at position {position}."
  | .port text => s!"Invalid port: {Text.quoted text}"
  | .ipv4 host => s!"Invalid IPv4 address: {Text.quoted host}"
  | .ipv6 host => s!"Invalid IPv6 address: {Text.quoted host}"
  | .name host => s!"Invalid IDNA hostname: {Text.quoted host}"
  | .unrooted => "For absolute URLs, path must be empty or begin with '/'"
  | .doubleSlash => "Relative URLs cannot have a path starting with '//'"
  | .colon => "Relative URLs cannot have a path starting with ':'"

/-! ## Writing -/

/-- A part with its mark before it. -/
def marked (mark : Char) : Option (List Char) → List Char
  | some part => mark :: part
  | none => []

/-- The host and the port; a host with colons stands in brackets. -/
def hostAndPort (u : Url) : List Char :=
  (if u.host.contains ':' then '[' :: u.host ++ [']'] else u.host)
    ++ marked ':' (u.port.map fun n => (toString n).toList)

/-- The user, the host and the port. -/
def authority (u : Url) : List Char :=
  (if u.user.isEmpty then [] else u.user ++ ['@']) ++ u.hostAndPort

def chars (u : Url) : List Char :=
  (if u.scheme.isEmpty then [] else u.scheme ++ [':'])
    ++ (if u.authority.isEmpty then [] else '/' :: '/' :: u.authority)
    ++ u.path ++ marked '?' u.query ++ marked '#' u.fragment

def text (u : Url) : String :=
  String.ofList u.chars

/-- An address that can be asked for names a scheme and a host. -/
def isAbsolute (u : Url) : Bool :=
  !u.scheme.isEmpty && !u.host.isEmpty

/-! ## Characters of the parts -/

/-- A visible ASCII character that is not among the given ones. -/
def visibleExcept (marks : String) (c : Char) : Bool :=
  0x21 ≤ c.toNat && c.toNat ≤ 0x7E && !marks.toList.contains c

def inFragment : Char → Bool := visibleExcept "\"<>`"

def inQuery : Char → Bool := visibleExcept "\"#<>"

def inPath : Char → Bool := visibleExcept "\"#<>?`\x7b\x7d"

/-- The characters that stay as they are in what names a user. -/
def inUser : Char → Bool := visibleExcept "\"#<>?`\x7b\x7d/;=@[\\]^|"

/-- The characters that stay as they are in the name of a host. -/
def inHost : Char → Bool := visibleExcept "#/:<>?@[]^"

end Url
end SignatureSearch
