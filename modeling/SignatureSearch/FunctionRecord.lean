/-
# `FunctionRecord` — functions in the store

A function that was found in a source file is first a draft, without an
identifier.  The store gives it one, which it keeps.  An answer to a search
shows the stored function together with its package.
-/
import SignatureSearch.Validation

namespace SignatureSearch

open Validation

/-- A function that is not stored yet. -/
structure FunctionDraft where
  packageId : String
  name : String
  signature : String
  moduleName : Option String := none
deriving DecidableEq, Repr

namespace FunctionDraft

def ofJson : Reader FunctionDraft := fun v =>
  (record "NewFunction" v).andThen fun fields =>
    FunctionDraft.mk
      <$> required fields "packageId" Validation.text
      <*> required fields "name" Validation.text
      <*> required fields "typeSignature" Validation.text
      <*> optional fields "moduleName" Validation.text

def toFields (f : FunctionDraft) : Fields :=
  [("packageId", .str f.packageId), ("name", .str f.name), ("typeSignature", .str f.signature),
   ("moduleName", .ofOption f.moduleName)]

end FunctionDraft

structure FunctionRecord where
  id : Nat
  packageId : String
  name : String
  signature : String
  moduleName : Option String := none
deriving DecidableEq, Repr

namespace FunctionRecord

def title : String := "FunctionRecord"

def readId : Reader Nat :=
  refine integer fun n => if n < 0 then .error "Function id cannot be negative" else .ok n.toNat

def ofFields (fields : Fields) : Checked FunctionRecord :=
  FunctionRecord.mk
    <$> required fields "id" readId
    <*> required fields "packageId" Validation.text
    <*> required fields "name" Validation.text
    <*> required fields "typeSignature" Validation.text
    <*> optional fields "moduleName" Validation.text

def ofJson : Reader FunctionRecord := fun v =>
  (record title v).andThen ofFields

def toFields (f : FunctionRecord) : Fields :=
  [("id", .int f.id), ("packageId", .str f.packageId), ("name", .str f.name),
   ("typeSignature", .str f.signature), ("moduleName", .ofOption f.moduleName)]

end FunctionRecord

structure FoundFunction where
  packageId : String
  packageName : String
  packageUrl : String
  functionId : Int
  name : String
  signature : String
  moduleName : Option String := none
deriving DecidableEq, Repr

namespace FoundFunction

def ofJson : Reader FoundFunction := fun v =>
  (record "CompleteFunction" v).andThen fun fields =>
    FoundFunction.mk
      <$> required fields "packageId" Validation.text
      <*> required fields "packageName" Validation.text
      <*> required fields "packageUrl" Validation.text
      <*> required fields "funcId" integer
      <*> required fields "funcName" Validation.text
      <*> required fields "funcTypeSig" Validation.text
      <*> optional fields "moduleName" Validation.text

def toFields (f : FoundFunction) : Fields :=
  [("packageId", .str f.packageId), ("packageName", .str f.packageName),
   ("packageUrl", .str f.packageUrl), ("funcId", .int f.functionId), ("funcName", .str f.name),
   ("funcTypeSig", .str f.signature), ("moduleName", .ofOption f.moduleName)]

end FoundFunction
end SignatureSearch
