/-
# `Package.Record` — how far the indexing of a package has come
-/
import SignatureSearch.Validation

namespace SignatureSearch.Package

inductive Status where
  | pending
  | processing
  | completed
  | failed
deriving DecidableEq, Repr

def Status.text : Status → String
  | .pending => "pending"
  | .processing => "processing"
  | .completed => "completed"
  | .failed => "failed"

/-- All stages, in the order of the work. -/
def Status.all : List Status :=
  [.pending, .processing, .completed, .failed]

def Status.ofText? (s : String) : Option Status :=
  Status.all.find? (·.text == s)

structure Record where
  packageId : String
  name : String
  url : String
  lastIndexed : Option String := none
  status : Status := .pending
  totalFiles : Nat := 0
  processedFiles : Nat := 0
  functionCount : Nat := 0
deriving DecidableEq, Repr

namespace Record

open Validation

/-- Some files of the package could not be read, or indexing failed as a whole. -/
def hasFailures (r : Record) : Bool :=
  r.status = .failed || (r.totalFiles > 0 && r.processedFiles < r.totalFiles)

/-- What is said about an unknown stage. -/
def statusRule : String :=
  "Status must be one of: " ++ ", ".intercalate (Status.all.map Status.text)

def readStatus : Reader Status :=
  refine Validation.text fun s =>
    match Status.ofText? s with
    | some status => .ok status
    | none => .error statusRule

def readCount : Reader Nat :=
  refine integer fun n => if n < 0 then .error "Counts cannot be negative" else .ok n.toNat

def ofJson : Reader Record := fun v =>
  (record "PackageRecord" v).andThen fun fields =>
    Record.mk
      <$> required fields "packageId" Validation.text
      <*> required fields "name" Validation.text
      <*> required fields "url" Validation.text
      <*> optional fields "lastIndexed" Validation.text
      <*> defaulted fields "status" .pending readStatus
      <*> defaulted fields "totalFiles" 0 readCount
      <*> defaulted fields "processedFiles" 0 readCount
      <*> defaulted fields "functionCount" 0 readCount

def toFields (r : Record) : Fields :=
  [("packageId", .str r.packageId), ("name", .str r.name), ("url", .str r.url),
   ("lastIndexed", .ofOption r.lastIndexed), ("status", .str r.status.text),
   ("totalFiles", .int r.totalFiles), ("processedFiles", .int r.processedFiles),
   ("functionCount", .int r.functionCount)]

end Record
end SignatureSearch.Package
