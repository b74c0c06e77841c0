/-
# `Database` — packages and functions in the store

Packages and functions are documents of two collections; a third one holds the
counter from which functions get their identifiers.  The functions of a package
are replaced as a whole: the new ones are written before the old ones are
deleted, so that a failure never leaves the package without functions.
-/
import SignatureSearch.FunctionRecord
import SignatureSearch.Package.Record
import SignatureSearch.Settings
import SignatureSearch.Store.Client

namespace SignatureSearch.Database

open Store

/-! ## Where things are stored -/

/-- The name of a collection, with the prefix from the settings. -/
def collection (settings : Settings) (name : String) : String :=
  if settings.collectionPrefix = "" then name else s!"{settings.collectionPrefix}_{name}"

def packages (settings : Settings) : String := collection settings "packages"

def functions (settings : Settings) : String := collection settings "functions"

def packageKey (settings : Settings) (id : String) : DocumentKey :=
  ⟨packages settings, id⟩

/-- The document of a function: its key is the decimal text of its identifier. -/
def functionKey (settings : Settings) (id : Int) : DocumentKey :=
  ⟨functions settings, toString id⟩

/-- The document that holds the next free identifier. -/
def counterKey (settings : Settings) : DocumentKey :=
  ⟨collection settings "counters", "function_ids"⟩

/-! ## Packages -/

/-- Stores what is known about a package; whether that went well. -/
def upsertPackage (settings : Settings) (record : Package.Record) : Action Bool :=
  orElse (do
    setDocument (packageKey settings record.packageId) record.toFields
    return true) false

/-- What is known about a package; nothing if it cannot be read. -/
def getPackage (settings : Settings) (id : String) : Action (Option Package.Record) :=
  orElse (do
    let fields ← readDocument (packageKey settings id)
    return fields.bind fun fields => (Package.Record.ofJson (.obj fields)).value?) none

/-- Changes fields of a package and notes the time; whether that went well. -/
def updatePackage (settings : Settings) (now id : String) (updates : Fields) : Action Bool :=
  orElse (do
    updateDocument (packageKey settings id) (Json.setField updates "lastIndexed" (.str now))
    return true) false

/-! ## Functions -/

/-- Adds to a number.  What is added to a floating point number must be in the range of these. -/
def add (v : Json) (k : Int) : Except Failure Json :=
  match v with
  | .int n => .ok (.int (n + k))
  | .bool b => .ok (.int ((if b then 1 else 0) + k))
  | .float x =>
    if (Binary64.ofInt k).toRatio?.isNone then .error .sumTooLarge
    else .ok (.float (x.addInt k))
  | v => .error (.notAddable v.kindName)

/-- What reserving identifiers does to the counter: the first of them, and the new counter. -/
def advance (count : Int) (counter : Option Fields) : Except Failure (Json × Fields) := do
  let next ←
    match counter with
    | none => pure (.int 0)
    | some fields =>
      match Json.field? fields "next" with
      | some next => pure next
      | none => throw (.noField "next")
  return (next, [("next", ← add next count)])

/-- Reserves so many identifiers in a row; the first of them. -/
def reserveIds (settings : Settings) (count : Int) : Action Json :=
  transact (counterKey settings) (advance count)

/-- Cuts a list into batches of at most `size` items. -/
def batches {α : Type} (size : Nat) : List α → List (List α)
  | [] => []
  | a :: rest => (a :: rest.take (size - 1)) :: batches size (rest.drop (size - 1))
termination_by items => items.length
decreasing_by simp only [List.length_drop, List.length_cons]; omega

/-- Gives the drafts identifiers, from `first` on. -/
def number (first : Json) (drafts : List FunctionDraft) : Except Failure (List FunctionRecord) :=
  drafts.zipIdx.mapM fun (draft, offset) => do
    let id ← add first offset
    (FunctionRecord.ofFields (("id", id) :: draft.toFields)).toExcept.mapError
      (.invalid FunctionRecord.title)

def setFunction (settings : Settings) (r : FunctionRecord) : Write :=
  .set (functionKey settings r.id) r.toFields

def deleteFunction (settings : Settings) (id : String) : Write :=
  .delete ⟨functions settings, id⟩

def commitBatches : List (List Write) → Action Unit
  | [] => return
  | batch :: rest => do
    commitBatch batch
    commitBatches rest

/-- Gives new functions identifiers; without functions there is nothing to reserve. -/
def record (settings : Settings) (drafts : List FunctionDraft) : Action (List FunctionRecord) := do
  if drafts.isEmpty then return []
  let first ← reserveIds settings drafts.length
  liftM (number first drafts)

def writeBatches (settings : Settings) (records : List FunctionRecord) : List (List Write) :=
  (batches settings.batchSize records).map fun batch => batch.map (setFunction settings)

/-- What was found before and is not among the new functions. -/
def outdated (stale : List String) (records : List FunctionRecord) : List String :=
  let new := records.map fun r => toString r.id
  stale.filter (!new.contains ·)

/-- The batches that delete what is out of date. -/
def deleteBatches (settings : Settings) (stale : List String) (records : List FunctionRecord) :
    List (List Write) :=
  (batches settings.batchSize (outdated stale records)).map fun batch =>
    batch.map (deleteFunction settings)

def replaceFunctions (settings : Settings) (packageId : String) (drafts : List FunctionDraft) :
    Action (List FunctionRecord) := do
  let stale ← queryWith (functions settings) "packageId" (.str packageId)
  let records ← record settings drafts
  commitBatches (writeBatches settings records)
  commitBatches (deleteBatches settings (stale.map (·.1)) records)
  return records

/-- A stored value as an integer: numbers are cut off at the point, texts are read, with any number
of digits. -/
def toInteger : Json → Except Failure Int
  | .int n => .ok n
  | .bool b => .ok (if b then 1 else 0)
  | .float x =>
    match x.truncate? with
    | some n => .ok n
    | none => .error (.notFinite (x = .nan))
  | .str s =>
    match Text.readInteger? s with
    | some n => .ok n
    | none => .error (.notIntegerText s)
  | v => .error (.notInteger v.kindName)

/-- The signature and the identifier in the document of a function. -/
def signaturePair (fields : Fields) : Except Failure (Json × Int) := do
  let field (name : String) : Except Failure Json :=
    match Json.field? fields name with
    | some v => .ok v
    | none => .error (.noField name)
  let signature ← field "typeSignature"
  let id ← toInteger (← field "id")
  return (signature, id)

/-- The signatures of all functions with their identifiers, in the order of these.  The stream of
documents may break off. -/
def allSignatures (settings : Settings) (stop : Option Interruption := none) :
    Action (List (Json × Int)) := do
  let documents ← queryBy (functions settings) "id"
  liftM (readStream (fun (_, fields) => signaturePair fields) documents stop)

/-- The packages that were asked for already, by their identifiers. -/
abbrev KnownPackages := List (String × Option Package.Record)

/-- A stored function with what is known about its package. -/
def withPackage (r : FunctionRecord) (package : Option Package.Record) : FoundFunction where
  packageId := r.packageId
  packageName := package.elim r.packageId (·.name)
  packageUrl := package.elim "" (·.url)
  functionId := r.id
  name := r.name
  signature := r.signature
  moduleName := r.moduleName

/-- Joins functions with their packages, in the order of the identifiers that are asked for; those
without a function are left out, and every package is read once. -/
def joinPackages (settings : Settings) (records : List FunctionRecord) (known : KnownPackages) :
    List Int → Action (List FoundFunction)
  | [] => return []
  | id :: rest =>
    match records.reverse.find? fun r => (r.id : Int) = id with
    | none => joinPackages settings records known rest
    | some r => do
      let (package, known) ←
        match known.lookup r.packageId with
        | some package => pure (package, known)
        | none => do
          let package ← getPackage settings r.packageId
          pure (package, (r.packageId, package) :: known)
      return withPackage r package :: (← joinPackages settings records known rest)

/-- The functions of some identifiers with their packages.  It does not matter in which order the
store answers. -/
def getFunctions (settings : Settings) (ids : List Int)
    (arrange : List String → List String := inOrder) : Action (List FoundFunction) := do
  if ids.isEmpty then return []
  let documents ← readAll (functions settings) (ids.map fun id => toString id) arrange
  let records ← liftM (documents.mapM fun fields =>
    (FunctionRecord.ofFields fields).toExcept.mapError (Failure.invalid FunctionRecord.title))
  joinPackages settings records [] ids

end SignatureSearch.Database
