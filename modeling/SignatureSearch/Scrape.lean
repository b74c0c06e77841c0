/-
# `Scrape` — from the catalog to the store

A scrape fetches the catalog, brings the checkouts of its packages up to date
and indexes them.  A package whose checkout cannot be had is left out, and one
that cannot be indexed is counted; the others go on.
-/
import SignatureSearch.Catalog
import SignatureSearch.CommandLine
import SignatureSearch.Indexing
import SignatureSearch.Repository

namespace SignatureSearch.Scrape

/-- Everything outside that a scrape deals with. -/
structure Surroundings where
  network : Http.Network
  remote : Repository.Remote
  /-- The directory of the checkouts. -/
  cacheDir : Path
  /-- A directory, and what is in it. -/
  root : Path
  tree : FileTree

structure Plan where
  /-- How many checkouts are worked on at a time; none or zero for what the settings say. -/
  workers : Option Int := none
  /-- Whether checkouts are taken as they are. -/
  skipSync : Bool := false
  /-- How many packages of the catalog are taken; a negative number leaves out the last ones. -/
  limit : Option (CommandLine.Given Int) := none
deriving DecidableEq, Repr

inductive Error where
  | catalog (error : Catalog.Error)
  | repository (error : Repository.Error)
  /-- The service could not even be asked to build its index anew. -/
  | refresh (error : Http.Error)
  | noWorkers
  /-- A limit is asked for, but none is given. -/
  | noLimit
  /-- No cache directory is given. -/
  | noCacheDir
deriving DecidableEq, Repr

def noWorkersMessage : String := "max_workers must be greater than 0"

def noLimitMessage : String :=
  "slice indices must be integers or None or have an __index__ method"

def noCacheDirMessage : String :=
  "expected str, bytes or os.PathLike object, not list"

/-! ## Choosing packages -/

/-- The first items of a list; a negative number leaves out so many at the end. -/
def firstItems {α : Type} (items : List α) (n : Int) : List α :=
  items.take (if n < 0 then (items.length + n).toNat else n.toNat)

def chosen (plan : Plan) (catalog : List Package) : Except Error (List Package) :=
  match plan.limit with
  | none => .ok catalog
  | some (.value n) => .ok (firstItems catalog n)
  | some .nothing => .error .noLimit

/-! ## Checkouts -/

/-- A package with the names that lead to its checkout. -/
abbrev Synced := Package × List String

/-- What bringing checkouts up to date comes to. -/
structure SyncOutcome where
  result : Except Error (List Synced)
  tree : FileTree
  commands : List Repository.Command

/-- The packages whose checkouts exist.  A package without a place stops the scrape. -/
def existing (w : Surroundings) (packages : List Package) : Except Error (List Synced) := do
  let placed ← packages.mapM fun p => do
    return (p, ← (Repository.place w.root w.cacheDir p.name).mapError .repository)
  return placed.filter fun (_, names) => w.tree.isDirectory names

/-- Whether an error with a checkout concerns its package only. -/
def isTolerated : Repository.Error → Bool
  | .outside _ | .sync _ _ => true
  | .nullCharacter | .blocked _ _ => false

def SyncOutcome.add (o : SyncOutcome) (package : Package) (one : Repository.Outcome) :
    SyncOutcome where
  result := do
    let synced ← o.result
    match one.place with
    | .ok names => return synced ++ [(package, names)]
    | .error e => if isTolerated e then return synced else throw (.repository e)
  tree := one.tree
  commands := o.commands ++ one.commands

/-- Brings the checkouts of packages up to date, one after the other.  All of them are tried, also
after an error that stops the scrape. -/
def syncAll (settings : Settings) (w : Surroundings) (packages : List Package) : SyncOutcome :=
  packages.foldl
    (fun o p => o.add p (Repository.sync settings w.remote w.root w.cacheDir p none o.tree))
    ⟨.ok [], w.tree, []⟩

/-- How many checkouts are worked on at a time. -/
def workers (settings : Settings) (plan : Plan) : Int :=
  (plan.workers.filter (· ≠ 0)).getD settings.scrapeWorkers

/-- The packages that have a checkout, after these were brought up to date as planned. -/
def syncPackages (settings : Settings) (w : Surroundings) (plan : Plan) (packages : List Package) :
    SyncOutcome :=
  if plan.skipSync then ⟨existing w packages, w.tree, []⟩
  else if workers settings plan ≤ 0 then ⟨.error .noWorkers, w.tree, []⟩
  else syncAll settings w packages

/-! ## Indexing -/

/-- A checkout, by the names that lead to it, and what is in the directory then. -/
def checkoutAt (w : Surroundings) (tree : FileTree) (names : List String) : Checkout where
  files := tree.raise w.root.resolve.names
  path := (w.root.join ⟨.none, names⟩).resolve

/-- Indexes packages, given their checkouts, one after the other. -/
def indexAll (settings : Settings) (now : String) :
    List (Package × Checkout) → StateM Store.Client (List (Except Indexing.Error Indexing.Report))
  | [] => return []
  | (package, checkout) :: rest => do
    let result ← (Indexing.indexPackage settings now package checkout).run
    return result :: (← indexAll settings now rest)

structure Summary where
  /-- How many packages of the catalog were taken. -/
  packages : Nat
  synced : Nat
  indexed : Nat
  failed : Nat
  /-- How many functions were stored. -/
  functions : Nat
deriving DecidableEq, Repr

def storedFunctions : Except Indexing.Error Indexing.Report → Nat
  | .ok report => report.functions
  | .error _ => 0

def Summary.of (packages : Nat) (results : List (Except Indexing.Error Indexing.Report)) :
    Summary where
  packages
  synced := results.length
  indexed := results.countP (·.toBool)
  failed := results.countP (!·.toBool)
  functions := results.foldl (fun n result => n + storedFunctions result) 0

def Summary.toFields (s : Summary) : Fields :=
  [("packages", .int s.packages), ("synced", .int s.synced), ("indexed", .int s.indexed),
   ("failed", .int s.failed), ("functions", .int s.functions)]

/-! ## The whole scrape -/

structure Trace where
  requests : List String := []
  commands : List Repository.Command := []
deriving DecidableEq, Repr

def run (settings : Settings) (now : String) (w : Surroundings) (plan : Plan) :
    StateM Store.Client (Except Error Summary × Trace) := do
  let exchange := Catalog.request w.network true settings.catalogUrl
  let requests := exchange.log .get
  match (Catalog.ofExchange exchange).mapError .catalog >>= chosen plan with
  | .error e => return (.error e, { requests })
  | .ok packages =>
    let sync := syncPackages settings w plan packages
    match sync.result with
    | .error e => return (.error e, { requests, commands := sync.commands })
    | .ok synced =>
      let results ← indexAll settings now
        (synced.map fun (package, names) => (package, checkoutAt w sync.tree names))
      return (.ok (.of packages.length results), { requests, commands := sync.commands })

/-! ## The program -/

def Plan.ofOptions (o : CommandLine.ScrapeOptions) : Plan where
  workers := o.workers.bind (·.value?)
  skipSync := o.skipSync
  limit := o.limit

inductive Exit where
  /-- The command line stops it. -/
  | stopped (stop : CommandLine.Stop)
  /-- An error that is not dealt with. -/
  | failed (error : Error)
  | code (code : Nat)
deriving DecidableEq, Repr

/-- The exit code after a scrape: one if a package failed, or if the service could not be asked to
build its index anew. -/
def exitCode (summary : Summary) (refreshed : Bool) : Nat :=
  if refreshed && summary.failed = 0 then 0 else 1

/-- What follows a scrape: the service is asked to build its index anew, if an address is given. -/
def conclude (network : Http.Network) (refreshUrl : Option String) (outcome : Except Error Summary)
    (trace : Trace) : Exit × Trace :=
  match outcome, refreshUrl.filter (· ≠ "") with
  | .error (.catalog e), _ => (if e.isForeign then .failed (.catalog e) else .code 1, trace)
  | .error e, _ => (.failed e, trace)
  | .ok summary, none => (.code (exitCode summary true), trace)
  | .ok summary, some url =>
    let (exchange, refreshed) := Catalog.refresh network url
    let exit :=
      match refreshed with
      | .ok refreshed => .code (exitCode summary refreshed)
      | .error e => .failed (.refresh e)
    (exit, { trace with requests := trace.requests ++ exchange.log .post })

/-- Runs the program on a command line.  What surrounds it depends on the cache directory. -/
def program (settings : Settings) (now : String) (around : String → Surroundings)
    (words : List String) : StateM Store.Client (Exit × Trace) := do
  match CommandLine.ScrapeOptions.read words with
  | .error stop => return (.stopped stop, {})
  | .ok o =>
    match o.cacheDir with
    | .nothing => return (.failed .noCacheDir, {})
    | .value dir =>
      let w := around dir
      let (outcome, trace) ← run settings now w (.ofOptions o)
      return conclude w.network (o.refreshUrl.bind (·.value?)) outcome trace

end SignatureSearch.Scrape
