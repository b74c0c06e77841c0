/-
# `Settings` — what can be set, and where settings come from

A setting is given directly, or by an environment variable of its name, or has
its default; the first of these counts.  Names are compared without regard to
case; of several spellings the first that is given directly counts, and the
last one in the environment.  In the environment every value is a text, and
that of a list setting has to be JSON.  A list that is given as a text is JSON,
or else items with commas between them.
-/
import SignatureSearch.Json.Reader
import SignatureSearch.Text.Case
import SignatureSearch.Validation

namespace SignatureSearch

structure Settings where
  appName : String := "Elm Function Search"
  appVersion : String := "0.1.0"
  debug : Bool := false
  logLevel : String := "INFO"
  projectId : String := "fnsearch-local"
  databaseId : Option String := some "(default)"
  /-- Put before the name of every collection, unless it is empty. -/
  collectionPrefix : String := ""
  /-- How many documents one commit may touch. -/
  batchSize : Nat := 500
  serviceAccountKeyPath : Option String := none
  searchPageSize : Nat := 10
  suggestLimit : Nat := 10
  /-- No page is larger than this. -/
  maxPageSize : Nat := 100
  catalogUrl : String := "https://package.elm-lang.org/search.json"
  gitHostUrl : String := "https://github.com"
  repoCacheDir : String := "./repo_cache"
  /-- In seconds. -/
  gitTimeout : Int := 120
  scrapeWorkers : Nat := 4
  sourceExtensions : List String := [".elm"]
  sourceFolders : List String := ["src"]
  corsOrigins : List String := ["*"]
deriving DecidableEq, Repr

namespace Settings

open Validation

/-- Why settings cannot be used. -/
inductive Error where
  /-- The environment has a list setting that is no JSON. -/
  | unreadableList (name : String)
  /-- A list setting is JSON that is nested too deep. -/
  | tooDeep (container : Json.Container)
  | invalid (issues : List Issue)
deriving DecidableEq, Repr

def Error.unreadableListMessage (name : String) : String :=
  s!"error parsing value for field \"{name}\" from source \"EnvSettingsSource\""

def listNames : List String :=
  ["source_extensions", "source_folders", "cors_origins"]

def names : List String :=
  ["app_name", "app_version", "debug", "log_level", "gcp_project_id", "firestore_database_id",
   "firestore_collection_prefix", "firestore_batch_size", "service_account_key_path",
   "search_page_size", "suggest_limit", "max_page_size", "package_catalog_url", "git_host_url",
   "repo_cache_dir", "git_timeout", "scrape_workers"] ++ listNames

/-- The items of a text with commas between them, trimmed; empty ones do not count. -/
def commaItems (s : String) : List String :=
  (((Text.splitOn ',' s.toList).map Text.trim).filter (!·.isEmpty)).map String.ofList

/-- Reads a list setting: a text is JSON, or else items with commas between them. -/
def readList : Reader (List String)
  | .str s =>
    match Json.read s.toList with
    | .ok v => list Validation.text v
    | .error _ => .valid (commaItems s)
  | v => list Validation.text v

/-- The container that is nested too deep in a list setting that is given as a text. -/
def tooDeep? (fields : Fields) : Option Json.Container :=
  listNames.findSome? fun name =>
    match Json.field? fields name with
    | some (.str s) =>
      match Json.read s.toList with
      | .error (.tooDeep container) => some container
      | _ => none
    | _ => none

def logLevels : List String :=
  ["DEBUG", "INFO", "WARNING", "ERROR", "CRITICAL"]

/-- Reads a log level, in any case. -/
def readLogLevel : Reader String :=
  refine Validation.text fun s =>
    if logLevels.contains (Text.upperAscii s) then .ok (Text.upperAscii s)
    else .error s!"Unknown log level: {s}"

def readPositive (greatest : Option Int) : Reader Nat := fun v =>
  Int.toNat <$> bounded (some 1) greatest v

/-- The first value of a name, without regard to case. -/
def lookup? {α : Type} (values : List (String × α)) (name : String) : Option α :=
  (values.find? fun v => Text.lower v.1 == name).map (·.2)

def environmentValue? (environment : List (String × String)) (name : String) :
    Except Error (Option Json) :=
  match lookup? environment.reverse name with
  | none => .ok none
  | some s =>
    if listNames.contains name then
      match Json.read s.toList with
      | .error (.tooDeep container) => .error (.tooDeep container)
      | .error _ => .error (.unreadableList name)
      | .ok .null => .ok none
      | .ok v => .ok (some v)
    else .ok (some (.str s))

/-- The values that are not left to their defaults. -/
def gather (environment : List (String × String)) (given : Fields) : Except Error Fields := do
  let found ← names.mapM fun name => do
    let fromEnvironment ← environmentValue? environment name
    return ((lookup? given name).or fromEnvironment).map (name, ·)
  return found.filterMap id

/-- Checks the values that are not left to their defaults. -/
def ofFields (fields : Fields) : Checked Settings :=
  let d : Settings := {}
  Settings.mk
    <$> defaulted fields "app_name" d.appName Validation.text
    <*> defaulted fields "app_version" d.appVersion Validation.text
    <*> defaulted fields "debug" d.debug boolean
    <*> defaulted fields "log_level" d.logLevel readLogLevel
    <*> defaulted fields "gcp_project_id" d.projectId Validation.text
    <*> defaulted fields "firestore_database_id" d.databaseId (nullable Validation.text)
    <*> defaulted fields "firestore_collection_prefix" d.collectionPrefix Validation.text
    <*> defaulted fields "firestore_batch_size" d.batchSize (readPositive (some 500))
    <*> optional fields "service_account_key_path" Validation.text
    <*> defaulted fields "search_page_size" d.searchPageSize (readPositive none)
    <*> defaulted fields "suggest_limit" d.suggestLimit (readPositive none)
    <*> defaulted fields "max_page_size" d.maxPageSize (readPositive none)
    <*> defaulted fields "package_catalog_url" d.catalogUrl Validation.text
    <*> defaulted fields "git_host_url" d.gitHostUrl Validation.text
    <*> defaulted fields "repo_cache_dir" d.repoCacheDir Validation.text
    <*> defaulted fields "git_timeout" d.gitTimeout integer
    <*> defaulted fields "scrape_workers" d.scrapeWorkers (readPositive none)
    <*> defaulted fields "source_extensions" d.sourceExtensions readList
    <*> defaulted fields "source_folders" d.sourceFolders readList
    <*> defaulted fields "cors_origins" d.corsOrigins readList

/-- The settings from an environment and from what is given directly. -/
def load (environment : List (String × String)) (given : Fields) : Except Error Settings := do
  let fields ← gather environment given
  match tooDeep? fields with
  | some container => throw (.tooDeep container)
  | none => (ofFields fields).toExcept.mapError .invalid

def toFields (s : Settings) : Fields :=
  [("app_name", .str s.appName), ("app_version", .str s.appVersion), ("debug", .bool s.debug),
   ("log_level", .str s.logLevel), ("gcp_project_id", .str s.projectId),
   ("firestore_database_id", .ofOption s.databaseId),
   ("firestore_collection_prefix", .str s.collectionPrefix),
   ("firestore_batch_size", .int s.batchSize),
   ("service_account_key_path", .ofOption s.serviceAccountKeyPath),
   ("search_page_size", .int s.searchPageSize), ("suggest_limit", .int s.suggestLimit),
   ("max_page_size", .int s.maxPageSize), ("package_catalog_url", .str s.catalogUrl),
   ("git_host_url", .str s.gitHostUrl), ("repo_cache_dir", .str s.repoCacheDir),
   ("git_timeout", .int s.gitTimeout), ("scrape_workers", .int s.scrapeWorkers),
   ("source_extensions", .ofStrings s.sourceExtensions),
   ("source_folders", .ofStrings s.sourceFolders), ("cors_origins", .ofStrings s.corsOrigins)]

end Settings
end SignatureSearch
