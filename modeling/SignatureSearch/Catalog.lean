/-
# `Catalog` — the published packages

The catalog is a list of packages at an address.  Entries that are no packages
are left out.
-/
import SignatureSearch.Http
import SignatureSearch.Json.Reader
import SignatureSearch.Package

namespace SignatureSearch.Catalog

inductive Error where
  | http (error : Http.Error)
  /-- The body cannot be read. -/
  | unreadable (error : Json.ReadError)
  | notAList
deriving DecidableEq, Repr

/-- The wording of an error.  A body that cannot be read has none, nor has an answer or an address
that is faulty in itself. -/
def Error.message? : Error → Option String
  | .http (.address e) => some e.message
  | .http (.foreignText _) | .http (.host _) | .http (.untyped _) | .http (.zone _) => none
  | .http e => some s!"Failed to fetch package catalog: {e.message}"
  | .unreadable (.tooDeep container) => some container.tooDeepMessage
  | .unreadable .encoding | .unreadable .malformed => none
  | .notAList => some "Package catalog is not a list"

/-- Whether an error is none of the catalog's, so that those who ask for it do not reckon with it:
there is no address to ask, or the body is nested too deep. -/
def Error.isForeign : Error → Bool
  | .http (.address _) | .unreadable (.tooDeep _) => true
  | _ => false

def maxRedirects : Nat := 20

def ofBody (body : List UInt8) : Except Error (List Package) :=
  match Json.readBytes body with
  | .error e => .error (.unreadable e)
  | .ok (.arr entries) => .ok (entries.filterMap fun v => (Package.ofJson v).value?)
  | .ok _ => .error .notAList

def request (network : Http.Network) (followRedirects : Bool) (url : String) : Http.Exchange :=
  if followRedirects then Http.fetch network .get maxRedirects url else Http.send network .get url

/-- The packages in the answer to a request. -/
def ofExchange (e : Http.Exchange) : Except Error (List Package) := do
  let response ← e.success.mapError .http
  ofBody response.body

/-- Asks a running service to build its index anew; whether it did.  An address that cannot be
asked, or an answer that cannot be read, is an error. -/
def refresh (network : Http.Network) (url : String) : Http.Exchange × Except Http.Error Bool :=
  let e := Http.send network .post url
  let refreshed :=
    match e.success with
    | .ok _ => .ok true
    | .error (.connect _) | .error .tooManyRedirects | .error (.badLocation _)
    | .error (.status _ _) => .ok false
    | .error e => .error e
  (e, refreshed)

end SignatureSearch.Catalog
