/-
# `Indexing` — storing the functions of a package

The source files of a package are read one by one.  A file whose module is not
exposed is skipped; one that cannot be read is counted and reported, and the
others go on.  The functions that were found replace those that were stored
for the package before, and the record of the package says how far things came.
-/
import SignatureSearch.Checkout
import SignatureSearch.Database
import SignatureSearch.Package

namespace SignatureSearch.Indexing

/-! ## One file -/

/-- The functions to store among some exports: those with a signature, in its normal form.  The
empty module name is none. -/
def drafts (packageId moduleName : String) (exports : List Elm.ExportEntry) : List FunctionDraft :=
  (Elm.ExportEntry.functions exports).filterMap fun e =>
    e.normalSignature?.map fun signature =>
      { packageId, name := e.name, signature,
        moduleName := if moduleName = "" then none else some moduleName }

inductive FileOutcome where
  /-- Its module is not exposed. -/
  | skipped
  | failed (error : String)
  | indexed (functions : List FunctionDraft)
deriving DecidableEq, Repr

namespace FileOutcome

def error? : FileOutcome → Option String
  | .failed error => some error
  | _ => none

def functions : FileOutcome → List FunctionDraft
  | .indexed functions => functions
  | _ => []

def isSkipped : FileOutcome → Bool
  | .skipped => true
  | _ => false

def isFailed : FileOutcome → Bool
  | .failed _ => true
  | _ => false

def isIndexed : FileOutcome → Bool
  | .indexed _ => true
  | _ => false

end FileOutcome

/-- What is said about a file whose bytes cannot be had. -/
def unreadable : String := "cannot read"

/-- What becomes of a source file with a given entry in the tree. -/
def readFile (packageId path : String) : Option FileTree.Node → FileOutcome
  | some (.file content) =>
    match SourceFile.read path content with
    | .ok m => .indexed (drafts packageId m.name m.exports)
    | .error failure => .failed s!"{path}: {failure.message}"
  | _ => .failed s!"{path}: {unreadable}"

/-! ## All files -/

/-- Why a package cannot be indexed. -/
inductive Error where
  | store (failure : Store.Failure)
  /-- A source file is not below the checkout. -/
  | listing (error : Checkout.NotBelow)
  | manifest (error : Checkout.ManifestError)
  | path (error : Checkout.NoName)
deriving DecidableEq, Repr

def Error.message : Error → String
  | .store failure => failure.message
  | .listing error => error.message
  | .manifest error => error.message
  | .path error => error.message

/-- What becomes of a source file, given the exposed modules. -/
def fileOutcome (settings : Settings) (packageId : String) (checkout : Checkout)
    (exposed : Option (List Json)) (path : String) : Except Error FileOutcome := do
  let read := readFile packageId path (checkout.node? (.ofText path))
  if exposed.isNone then return read
  let module ← (Checkout.moduleName settings.sourceFolders path).mapError .path
  return if Checkout.isExposed exposed module then read else .skipped

/-- What becomes of the source files of a package, in the order of their paths. -/
def fileOutcomes (settings : Settings) (packageId : String) (checkout : Checkout) :
    Except Error (List FileOutcome) := do
  let paths ← (Checkout.sourceFiles settings checkout).mapError .listing
  let exposed ← checkout.exposed.mapError .manifest
  paths.mapM (fileOutcome settings packageId checkout exposed)

/-! ## The package -/

structure Report where
  package : PackageName
  totalFiles : Nat
  processed : Nat
  failed : Nat
  skipped : Nat
  /-- How many functions were stored. -/
  functions : Nat
  errors : List String
deriving DecidableEq, Repr

def Report.of (package : PackageName) (outcomes : List FileOutcome) (functions : Nat) : Report where
  package
  totalFiles := outcomes.length
  processed := outcomes.countP (·.isIndexed)
  failed := outcomes.countP (·.isFailed)
  skipped := outcomes.countP (·.isSkipped)
  functions
  errors := outcomes.filterMap (·.error?)

def Report.toFields (r : Report) : Fields :=
  [("package", .str r.package.text), ("total_files", .int r.totalFiles),
   ("processed", .int r.processed), ("failed", .int r.failed), ("skipped", .int r.skipped),
   ("functions", .int r.functions), ("errors", .ofStrings r.errors)]

/-- What the record of a package says while it is indexed. -/
def started (settings : Settings) (now : String) (package : Package) : Package.Record where
  packageId := package.name.identifier
  name := package.name.text
  url := package.repositoryUrl settings.gitHostUrl
  status := .processing
  lastIndexed := some now

/-- The change of the record of a package whose functions could not be stored. -/
def failure : Fields :=
  [("status", .str Package.Status.failed.text)]

/-- The change of the record of a package that was indexed.  Skipped files do not count. -/
def completion (r : Report) : Fields :=
  [("status", .str Package.Status.completed.text),
   ("totalFiles", .int (r.totalFiles - r.skipped : Int)), ("processedFiles", .int r.processed),
   ("functionCount", .int r.functions)]

/-- Replaces the functions of a package; if that fails, its record says so. -/
def storeFunctions (settings : Settings) (now packageId : String) (drafts : List FunctionDraft) :
    Store.Action (List FunctionRecord) :=
  tryCatch (Database.replaceFunctions settings packageId drafts) fun e => do
    let _ ← Database.updatePackage settings now packageId failure
    throw e

/-- A computation with calls to the store that may fail for other reasons too. -/
abbrev Job := ExceptT Error (StateM Store.Client)

def Job.ofAction {α : Type} (action : Store.Action α) : Job α :=
  ExceptT.adapt Error.store action

def indexPackage (settings : Settings) (now : String) (package : Package) (checkout : Checkout) :
    Job Report := do
  let id := package.name.identifier
  let _ ← Job.ofAction (Database.upsertPackage settings (started settings now package))
  let outcomes ← liftM (fileOutcomes settings id checkout)
  let records ← Job.ofAction
    (storeFunctions settings now id (outcomes.flatMap (·.functions)))
  let report := Report.of package.name outcomes records.length
  let _ ← Job.ofAction (Database.updatePackage settings now id (completion report))
  return report

end SignatureSearch.Indexing
