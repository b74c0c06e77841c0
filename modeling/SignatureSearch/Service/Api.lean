/-
# `Service.Api` — requests to the service

A request names a path.  A path that leads to an endpoint is answered there, if
the method fits.  A path that would lead to one with a slash more or less at its
end is redirected.  The parameters in the query are checked, and all that is
wrong with them is reported at once.
-/
import SignatureSearch.Package
import SignatureSearch.Service
import SignatureSearch.Text.Percent

namespace SignatureSearch.Service

open Store (Interruption)

def version : String := "0.1.0"

structure Request where
  method : String
  /-- The name under which the service was addressed. -/
  host : String
  path : String
  query : String
deriving DecidableEq, Repr

structure Reply where
  status : Nat
  body : Json
  location : Option String := none
deriving DecidableEq, Repr

/-- What the clock shows: the time, and for how many seconds the service has been running. -/
structure Clock where
  now : String
  uptime : Binary64
deriving DecidableEq, Repr

/-! ## Endpoints -/

inductive Endpoint where
  | health
  | ready
  | live
  /-- Functions of a signature. -/
  | search (signature : String)
  /-- Signatures that start with a text. -/
  | suggest (start : String)
  /-- Builds the index anew. -/
  | update
  | root
  /-- Pages that describe the service to people and programs. -/
  | description
deriving DecidableEq, Repr

def Endpoint.methods : Endpoint → List String
  | .update => ["POST"]
  | .description => ["GET", "HEAD"]
  | _ => ["GET"]

def Endpoint.fixed : List (String × Endpoint) :=
  [("/openapi.json", .description), ("/docs", .description),
   ("/docs/oauth2-redirect", .description), ("/redoc", .description),
   ("/health/", .health), ("/health/ready", .ready), ("/health/live", .live),
   ("/update_functions", .update), ("/", .root)]

/-- The endpoints at paths that end in a signature. -/
def Endpoint.parametric : List (String × (String → Endpoint)) :=
  [("/search/", .search), ("/suggest/", .suggest)]

/-- A text without a line feed at its end. -/
def chomp (cs : List Char) : List Char :=
  if cs.getLast? = some '\n' then cs.dropLast else cs

/-- The endpoint that a path leads to.  A line feed at the end of a path does not count, and there
is none within a signature. -/
def Endpoint.ofPath? (path : String) : Option Endpoint :=
  let cs := chomp path.toList
  match Endpoint.fixed.lookup (String.ofList cs) with
  | some endpoint => some endpoint
  | none =>
    Endpoint.parametric.findSome? fun (start, endpoint) =>
      if start.toList.isPrefixOf cs && !cs.contains '\n' then
        some (endpoint (String.ofList (cs.drop start.length)))
      else none

/-- The same path with a slash more at its end, or without the slashes there. -/
def otherPath (path : String) : String :=
  if path.toList.getLast? = some '/' then Package.withoutTrailingSlashes path else path ++ "/"

/-- The address of a path on the service, with the host and the query of a request. -/
def Request.address (r : Request) (path : String) : String :=
  Text.Percent.encodeAddress
    ("http://" ++ r.host ++ path ++ if r.query = "" then "" else "?" ++ r.query)

/-! ## Replies -/

/-- A reply that only says what is wrong. -/
def Reply.fault (status : Nat) (detail : String) : Reply where
  status
  body := .obj [("detail", .str detail)]

/-- The reply to a request that failed unexpectedly. -/
def Reply.internal (clock : Clock) : Reply where
  status := 500
  body := .obj [("error", .str "Internal server error"),
    ("message", .str "An unexpected error occurred"), ("timestamp", .str clock.now)]

/-- What is known about an issue beyond its wording. -/
def issueContext : Validation.Problem → Fields
  | .belowLeast least => [("ctx", .obj [("ge", .int least)])]
  | _ => []

def issueFields (i : Validation.Issue) : Fields :=
  [("type", .str i.problem.code), ("loc", .arr (i.path.map Validation.Step.toJson)),
   ("msg", .str i.problem.message), ("input", i.input)] ++ issueContext i.problem

/-- The reply to a request with bad parameters. -/
def Reply.unprocessable (issues : List Validation.Issue) : Reply where
  status := 422
  body := .obj [("detail", .arr (issues.map fun i => .obj (issueFields i)))]

/-- The reply that a request went well. -/
def Reply.ok (body : Json) : Reply where
  status := 200
  body

/-! ## Parameters -/

/-- A parameter in a query that is an integer of at least `least`, if it is given. -/
def parameter (query name : String) (least : Int) : Validation.Checked (Option Int) :=
  match Text.Percent.lookup? query name with
  | none => .valid none
  | some value =>
    (((Validation.bounded (some least) none (.str value)).map some).within (.field name)).within
      (.field "query")

/-- The size of a page: what is asked for or the default, but never more than the settings allow. -/
def pageSize (settings : Settings) (limit : Option Int) (default : Nat) : Int :=
  min (limit.getD default) settings.maxPageSize

structure Page where
  limit : Option Int
  offset : Option Int
deriving DecidableEq, Repr

def Page.ofQuery (query : String) : Validation.Checked Page :=
  Page.mk <$> parameter query "limit" 1 <*> parameter query "offset" 0

/-! ## Handlers -/

def search (settings : Settings) (clock : Clock) (signature : String) (page : Page)
    (arrange : List String → List String := Store.inOrder) : StateM Service Reply := do
  let limit := pageSize settings page.limit settings.searchPageSize
  match (← get).cache.search signature limit page.offset with
  | .error _ => return .internal clock
  | .ok none => return .ok (.arr [])
  | .ok (some ids) =>
    match ← database (Database.getFunctions settings ids arrange) with
    | .ok found => return .ok (.arr (found.map fun f => .obj f.toFields))
    | .error failure => return .fault 500 s!"Error fetching functions: {failure.message}"

def suggest (settings : Settings) (clock : Clock) (start : String) (limit : Option Int) :
    StateM Service Reply := do
  match (← get).cache.suggest start (pageSize settings limit settings.suggestLimit) with
  | .error _ => return .internal clock
  | .ok found => return .ok (.ofStrings (found.getD []))

/-- Builds the index anew. -/
def update (settings : Settings) (clock : Clock) (stop : Option Interruption := none) :
    StateM Service Reply := do
  match ← reload settings clock.now stop with
  | .unread (.unavailable _) => return .internal clock
  | .unread failure => return .fault 500 s!"Error loading function signatures: {failure.message}"
  | .unbuilt _ => return .internal clock
  | .installed cache =>
    return .ok <| .obj [("success", .bool true),
      ("signatures", .int cache.index.signatureCount), ("functions", .int cache.index.size),
      ("generation", .int cache.generation), ("updated_at", .ofOption cache.replacedAt)]

def health (clock : Clock) (s : Service) : Reply :=
  .ok <| .obj [("status", .str "healthy"), ("timestamp", .str clock.now),
    ("uptime", .float clock.uptime), ("version", .str version),
    ("checks", .obj [("api", .str "healthy"), ("index_generation", .int s.cache.generation),
      ("index_signatures", .int s.cache.index.signatureCount),
      ("index_functions", .int s.cache.index.size),
      ("index_replaced_at", .ofOption s.cache.replacedAt)])]

def ready (clock : Clock) (s : Service) : Reply :=
  if s.cache.generation = 0 then .fault 503 "Signature index not loaded yet"
  else
    .ok <| .obj [("status", .str "ready"), ("timestamp", .str clock.now),
      ("generation", .int s.cache.generation)]

def live (clock : Clock) : Reply :=
  .ok <| .obj [("status", .str "alive"), ("timestamp", .str clock.now),
    ("uptime", .float clock.uptime)]

/-- What the service is, and where to go from here. -/
def root (settings : Settings) : Reply :=
  .ok <| .obj [("name", .str settings.appName), ("version", .str version), ("docs", .str "/docs"),
    ("health", .str "/health"), ("search", .str "/search/\x7btype_signature\x7d"),
    ("suggest", .str "/suggest/\x7btype_signature\x7d")]

/-- Answers a request at an endpoint.  Whether the store can be reached is looked at before the
parameters are; what is read of it in bulk may break off. -/
def answer (settings : Settings) (clock : Clock) (query : String) (stop : Option Interruption) :
    Endpoint → StateM Service Reply
  | .health => return health clock (← get)
  | .ready => return ready clock (← get)
  | .live => return live clock
  | .root => return root settings
  | .description => return .ok .null
  | .update => update settings clock stop
  | .search signature => do
    if (← get).missingKey.isSome then return .internal clock
    match Page.ofQuery query with
    | .invalid issues => return .unprocessable issues
    | .valid page => search settings clock signature page
  | .suggest start =>
    match parameter query "limit" 1 with
    | .invalid issues => return .unprocessable issues
    | .valid limit => suggest settings clock start limit

def respond (settings : Settings) (clock : Clock) (r : Request)
    (stop : Option Interruption := none) : StateM Service Reply :=
  match Endpoint.ofPath? r.path with
  | some endpoint =>
    if endpoint.methods.contains r.method then answer settings clock r.query stop endpoint
    else return .fault 405 "Method Not Allowed"
  | none =>
    let other := otherPath r.path
    if (Endpoint.ofPath? other).isSome then
      return { status := 307, body := .null, location := some (r.address other) }
    else return .fault 404 "Not Found"

end SignatureSearch.Service
