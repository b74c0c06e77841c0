/-
# `Package` — packages of the catalog

A package is named by its author and its project, with a slash between them.
The project may hold further slashes, the author may not.  The identifier of a
package is its name with two underscores for every slash.
-/
import SignatureSearch.Text.Search
import SignatureSearch.Validation

namespace SignatureSearch

structure PackageName where
  author : String
  project : String
  author_ne : author ≠ "" := by decide
  project_ne : project ≠ "" := by decide
  slash_not_mem : '/' ∉ author.toList := by decide
deriving DecidableEq, Repr

namespace PackageName

def text (n : PackageName) : String :=
  n.author ++ "/" ++ n.project

/-- Reads a name: what stands before the first slash, and what stands after it. -/
def ofText? (s : String) : Option PackageName :=
  match Text.cutChar '/' s.toList with
  | none => none
  | some (author, project) =>
    let author := String.ofList author
    let project := String.ofList project
    if h : author ≠ "" ∧ project ≠ "" ∧ '/' ∉ author.toList then
      some ⟨author, project, h.1, h.2.1, h.2.2⟩
    else none

/-- The identifier under which a package is stored. -/
def identifier (n : PackageName) : String :=
  String.ofList (n.text.toList.flatMap fun c => if c = '/' then ['_', '_'] else [c])

end PackageName

structure Package where
  name : PackageName
  summary : Option String := none
  license : Option String := none
  version : Option String := none
deriving DecidableEq, Repr

namespace Package

open Validation

def nameRule : String := "Package name must be in 'author/project' form"

def readName : Reader PackageName :=
  refine Validation.text fun s =>
    match PackageName.ofText? s with
    | some name => .ok name
    | none => .error nameRule

/-- Reads a version: of a list of versions the last one counts, and of an empty list none. -/
def readVersion : Reader (Option String)
  | .arr items =>
    match items.getLast? with
    | some v => nullable Validation.text v
    | none => .valid none
  | v => nullable Validation.text v

/-- The field that holds the version: `version` if it is there, else `versions`. -/
def versionField (fields : Fields) : String :=
  if (Json.field? fields "version").isNone && (Json.field? fields "versions").isSome then "versions"
  else "version"

def ofJson : Reader Package := fun v =>
  (record "PackageMetadata" v).andThen fun fields =>
    Package.mk
      <$> required fields "name" readName
      <*> optional fields "summary" Validation.text
      <*> optional fields "license" Validation.text
      <*> defaulted fields (versionField fields) none readVersion

def toFields (p : Package) : Fields :=
  [("name", .str p.name.text), ("summary", .ofOption p.summary),
   ("license", .ofOption p.license), ("version", .ofOption p.version)]

/-- What follows from the name of a package. -/
def derivedFields (p : Package) : Fields :=
  [("author", .str p.name.author), ("project", .str p.name.project),
   ("package_id", .str p.name.identifier)]

def withoutTrailingSlashes (s : String) : String :=
  String.ofList (s.toList.reverse.dropWhile (· == '/')).reverse

/-- The address of the repository of a package: every package lives on the host under its name. -/
def repositoryUrl (host : String) (p : Package) : String :=
  withoutTrailingSlashes host ++ "/" ++ p.name.text

end Package
end SignatureSearch
