/-
# `Elm.Json` — modules as data

How exposing clauses, declarations and exported entries are written as data,
and how they are read back.  Each of the first two is a record whose variant is
named by its field `kind`.
-/
import SignatureSearch.Elm.Exports
import SignatureSearch.Validation

namespace SignatureSearch.Elm

open Validation

/-- An optional list of terms: none is null. -/
def termsToJson (terms : Option (List String)) : Json :=
  match terms with
  | some terms => .ofStrings terms
  | none => .null

namespace ExportedName

def toFields : ExportedName → Fields
  | .type name definition =>
    [("kind", .str "type"), ("name", .str name), ("definition", .ofOption definition)]
  | .function name signature =>
    [("kind", .str "function"), ("name", .str name), ("typeSignature", termsToJson signature)]

def ofJson : Reader ExportedName :=
  variant [
    ("type", fun fields =>
      ExportedName.type
        <$> required fields "name" Validation.text
        <*> optional fields "definition" Validation.text),
    ("function", fun fields =>
      ExportedName.function
        <$> required fields "name" Validation.text
        <*> optional fields "typeSignature" (list Validation.text))]

end ExportedName

namespace ExportSpec

def toFields : ExportSpec → Fields
  | .all => [("kind", .str "all")]
  | .list names =>
    [("kind", .str "list"), ("names", .arr (names.map fun n => .obj n.toFields))]

def ofJson : Reader ExportSpec :=
  variant [
    ("all", fun _ => .valid .all),
    ("list", fun fields =>
      ExportSpec.list <$> defaulted fields "names" [] (Validation.list ExportedName.ofJson))]

end ExportSpec

namespace Declaration

def toFields : Declaration → Fields
  | .comment text => [("kind", .str "comment"), ("text", .str text)]
  | .function name signature =>
    [("kind", .str "function"), ("name", .str name), ("typeSignature", termsToJson signature)]
  | .type name definition isAlias =>
    [("kind", .str "type"), ("name", .str name), ("definition", .ofOption definition),
     ("alias", .bool isAlias)]
  | .ignore => [("kind", .str "ignore")]

/-- Reads the name of a function, which is not empty. -/
def readFunctionName : Reader String :=
  refine Validation.text fun name =>
    if name = "" then .error "Function name cannot be empty" else .ok name

def ofJson : Reader Declaration :=
  variant [
    ("comment", fun fields =>
      Declaration.comment <$> defaulted fields "text" "" Validation.text),
    ("function", fun fields =>
      Declaration.function
        <$> required fields "name" readFunctionName
        <*> optional fields "typeSignature" (list Validation.text)),
    ("type", fun fields =>
      Declaration.type
        <$> required fields "name" Validation.text
        <*> optional fields "definition" Validation.text
        <*> defaulted fields "alias" false boolean),
    ("ignore", fun _ => .valid .ignore)]

end Declaration

namespace ExportEntry

def toFields (e : ExportEntry) : Fields :=
  [("name", .str e.name), ("kind", .str e.kind.text), ("typeSignature", termsToJson e.signature?),
   ("definition", .ofOption e.definition?)]

/-- The loose parts of an entry. -/
structure Parts where
  name : String
  kind : String
  signature : Option (List String)
  definition : Option String
deriving DecidableEq, Repr

/-- Puts the parts of an entry together: a function has no definition and a type no signature. -/
def ofParts (input : Json) (p : Parts) : Checked ExportEntry :=
  if p.kind = NameKind.function.text then
    match p.definition with
    | none => .valid (.function p.name p.signature)
    | some _ => Checked.issue (.refused "Function exports cannot carry a type definition") input
  else
    match p.signature with
    | none => .valid (.type p.name p.definition)
    | some _ => Checked.issue (.refused "Type exports cannot carry a type signature") input

def ofJson : Reader ExportEntry := fun v =>
  (record "ExportEntry" v).andThen fun fields =>
    (Parts.mk
      <$> required fields "name" Validation.text
      <*> required fields "kind" (word [NameKind.function.text, NameKind.type.text])
      <*> optional fields "typeSignature" (list Validation.text)
      <*> optional fields "definition" Validation.text).andThen (ofParts v)

end ExportEntry
end SignatureSearch.Elm
