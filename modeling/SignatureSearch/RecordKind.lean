/-
# `RecordKind` — the records that are exchanged as data

A record of a kind is checked when it is made.  Then its fields can be
assigned, which checks nothing; but records of some kinds are frozen.  What
follows from the fields cannot be assigned, and a name that starts with an
underscore is no field: it may be assigned in every record and, with few
exceptions, changes nothing.
-/
import SignatureSearch.Elm.Json
import SignatureSearch.FunctionRecord
import SignatureSearch.Package
import SignatureSearch.Package.Record

namespace SignatureSearch

open Validation

inductive RecordKind where
  | package
  | packageRecord
  | exportEntry
  | functionRecord
  | functionDraft
  | foundFunction
  | exportSpec
  | declaration
  | exportedName
deriving DecidableEq, Repr

namespace RecordKind

def name : RecordKind → String
  | .package => "PackageMetadata"
  | .packageRecord => "PackageRecord"
  | .exportEntry => "ExportEntry"
  | .functionRecord => "FunctionRecord"
  | .functionDraft => "NewFunction"
  | .foundFunction => "CompleteFunction"
  | .exportSpec => "ExportSpec"
  | .declaration => "Declaration"
  | .exportedName => "ExportedName"

def all : List RecordKind :=
  [.package, .packageRecord, .exportEntry, .functionRecord, .functionDraft, .foundFunction,
   .exportSpec, .declaration, .exportedName]

def ofName? (s : String) : Option RecordKind :=
  all.find? (·.name == s)

def isFrozen : RecordKind → Bool
  | .functionRecord | .exportSpec | .declaration | .exportedName => true
  | _ => false

/-- A record: its fields, and what follows from them. -/
structure Instance where
  kind : RecordKind
  fields : Fields
  derived : Fields
deriving DecidableEq, Repr

/-- The name of what a record is.  The kinds that have variants are named by the variant. -/
def Instance.title (i : Instance) : String :=
  match i.kind, Json.field? i.fields "kind" with
  | .exportSpec, some (.str "all") => "ExposeAll"
  | .exportSpec, _ => "ExposeList"
  | .declaration, some (.str "comment") => "CommentDeclaration"
  | .declaration, some (.str "function") => "FunctionDeclaration"
  | .declaration, some (.str "type") => "TypeDeclaration"
  | .declaration, _ => "IgnoreDeclaration"
  | .exportedName, some (.str "type") => "ExportedType"
  | .exportedName, _ => "ExportedFunction"
  | kind, _ => kind.name

def make (kind : RecordKind) : Reader Instance := fun v =>
  match kind with
  | .package => (Package.ofJson v).map fun p => ⟨kind, p.toFields, p.derivedFields⟩
  | .packageRecord =>
    (Package.Record.ofJson v).map fun r =>
      ⟨kind, r.toFields, [("has_failures", .bool r.hasFailures)]⟩
  | .exportEntry =>
    (Elm.ExportEntry.ofJson v).map fun e =>
      ⟨kind, e.toFields, [("normalized_signature", .ofOption e.normalSignature?)]⟩
  | .functionRecord => (FunctionRecord.ofJson v).map fun f => ⟨kind, f.toFields, []⟩
  | .functionDraft => (FunctionDraft.ofJson v).map fun f => ⟨kind, f.toFields, []⟩
  | .foundFunction => (FoundFunction.ofJson v).map fun f => ⟨kind, f.toFields, []⟩
  | .exportSpec => (Elm.ExportSpec.ofJson v).map fun s => ⟨kind, s.toFields, []⟩
  | .declaration => (Elm.Declaration.ofJson v).map fun d => ⟨kind, d.toFields, []⟩
  | .exportedName => (Elm.ExportedName.ofJson v).map fun n => ⟨kind, n.toFields, []⟩

/-- Why an assignment is refused. -/
inductive AssignError where
  | frozen (issue : Issue)
  | noField (title name : String)
  /-- The name is of something that follows from the record. -/
  | derived (title name : String)
  /-- The name is of something that belongs to the record, but cannot be changed. -/
  | fixed (title name : String)
  /-- The name is of the fields as a whole, and the value has none. -/
  | notFields (valueKind : String)
  /-- The name is of the kind of the record. -/
  | notKind (valueKind : String)
deriving DecidableEq, Repr

/-- The wording of an assignment that is refused, but for one to a frozen record. -/
def AssignError.message : AssignError → String
  | .frozen _ => ""
  | .noField title name => s!"\"{title}\" object has no field \"{name}\""
  | .derived title name => s!"property '{name}' of '{title}' object has no setter"
  | .fixed title name => s!"attribute '{name}' of '{title}' objects is not writable"
  | .notFields valueKind => s!"__dict__ must be set to a dictionary, not a '{valueKind}'"
  | .notKind valueKind => s!"__class__ must be set to a class, not '{valueKind}' object"

def commonDerived : List String :=
  ["model_extra", "model_fields_set"]

/-- Assigns to a name that starts with an underscore.  Fields that are assigned as a whole take the
place of all the others; those that the kind does not know are left out. -/
def Instance.assignHidden (i : Instance) (name : String) (value : Json) :
    Except AssignError Instance :=
  match name, value with
  | "__class__", v => .error (.notKind v.kindName)
  | "__dict__", .obj fields =>
    .ok { i with fields := fields.filter fun (name, _) => i.fields.any (·.1 == name) }
  | "__dict__", v => .error (.notFields v.kindName)
  | "__fields_set__", _ => .error (.derived i.title name)
  | "__weakref__", _ => .error (.fixed i.title name)
  | _, _ => .ok i

/-- Assigns a value to a field, without any check of the value. -/
def Instance.assign (i : Instance) (name : String) (value : Json) :
    Except AssignError Instance :=
  if name.toList.head? = some '_' then i.assignHidden name value
  else if i.kind.isFrozen then .error (.frozen ⟨.frozen, [.field name], value⟩)
  else if (i.derived.map (·.1) ++ commonDerived).contains name then .error (.derived i.title name)
  else if i.fields.any (·.1 == name) then
    .ok { i with fields := Json.setField i.fields name value }
  else .error (.noField i.title name)

end RecordKind
end SignatureSearch
