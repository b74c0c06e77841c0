/-
# `Checkout` — the files of a package

The source files of a package are those below its source folders with one of
the source extensions.  A file below two folders is listed for each of them.
A folder may lie outside the checkout: one that leads back with two dots, or an
absolute one.  Files are listed by their paths from the checkout, and a file
whose path does not begin with that of the checkout has none.

The modules that a package exposes are named in its manifest; without a
readable manifest every module counts.  The name of a module follows from its
path: the longest source folder that contains it is taken away.
-/
import SignatureSearch.FileTree
import SignatureSearch.Json.Reader
import SignatureSearch.Json.Render
import SignatureSearch.Settings

namespace SignatureSearch

/-- A checkout, by its path, and all files that paths may lead to. -/
structure Checkout where
  /-- The files, by their names from the root of the file system. -/
  files : FileTree
  path : Path
  /-- The directory that relative paths start from. -/
  start : List String := []
deriving DecidableEq, Repr

namespace Checkout

/-- The names from the root of the file system to where a path leads. -/
def absolute (checkout : Checkout) (p : Path) : List String :=
  match p.root with
  | .none => checkout.start ++ p.names
  | _ => p.names

/-- What a path from the checkout leads to. -/
def node? (checkout : Checkout) (p : Path) : Option FileTree.Node :=
  checkout.files.follow? (checkout.absolute (checkout.path.join p))

/-! ## The listing -/

/-- Whether a path has one of the extensions, without regard to case. -/
def hasExtension (extensions : List String) (path : Path) : Bool :=
  (extensions.map Text.lower).contains path.lowerSuffix

/-- The source files below one folder. -/
def filesUnder (checkout : Checkout) (extensions : List String) (folder : String) : List Path :=
  let base := checkout.path.join (.ofText folder)
  match checkout.files.directory? (checkout.absolute base) with
  | some names =>
    ((checkout.files.filesBelow names).map fun rest =>
      { base with names := base.names ++ rest }).filter (hasExtension extensions)
  | none => []

/-- The source files below the folders, one folder after the other. -/
def found (settings : Settings) (checkout : Checkout) : List Path :=
  settings.sourceFolders.flatMap (checkout.filesUnder settings.sourceExtensions)

/-- A source file whose path does not begin with that of the checkout. -/
structure NotBelow where
  file : Path
  checkout : Path
deriving DecidableEq, Repr

def NotBelow.message (e : NotBelow) : String :=
  s!"{Text.quoted e.file.text} is not in the subpath of {Text.quoted e.checkout.text}" ++
    " OR one path is relative and the other is absolute."

/-- The path of a file from the checkout. -/
def relative (checkout : Checkout) (file : Path) : Except NotBelow Path :=
  match file.relativeTo? checkout.path with
  | some p => .ok p
  | none => .error ⟨file, checkout.path⟩

/-- The source files by their paths from the checkout, sorted by these. -/
def sourceFiles (settings : Settings) (checkout : Checkout) : Except NotBelow (List String) := do
  let paths ← (found settings checkout).mapM checkout.relative
  return (paths.map Path.text).mergeSort (fun a b => decide (a ≤ b))

/-! ## Names of modules -/

/-- A path without a last name. -/
structure NoName where
  path : Path
deriving DecidableEq, Repr

def NoName.message (e : NoName) : String :=
  s!"PurePosixPath({Text.quoted e.path.text}) has an empty name"

/-- The longest of the folders whose parts are a proper beginning of the given parts; of equally
long ones the first. -/
def enclosing? (folders : List (List String)) (parts : List String) : Option (List String) :=
  (folders.mergeSort (fun a b => decide (b.length ≤ a.length))).find? fun folder =>
    folder.isPrefixOf parts && folder.length < parts.length

def moduleName (folders : List String) (path : String) : Except NoName String :=
  match (Path.ofText path).withoutSuffix? with
  | none => .error ⟨Path.ofText path⟩
  | some stem =>
    let folder := (enclosing? (folders.map fun f => (Path.ofText f).parts) stem.parts).getD []
    .ok (".".intercalate (stem.parts.drop folder.length))

/-! ## The manifest -/

/-- The file that describes a package. -/
def manifestName : String := "elm.json"

def exposedField : String := "exposed-modules"

/-- Why the exposed modules cannot be told. -/
inductive ManifestError where
  /-- A list or a mapping where the name of a module is expected. -/
  | notAName (kind : String)
  /-- The manifest is nested too deep. -/
  | tooDeep (container : Json.Container)
deriving DecidableEq, Repr

def ManifestError.message : ManifestError → String
  | .notAName kind => s!"unhashable type: '{kind}'"
  | .tooDeep container => container.tooDeepMessage

/-- The data in a text; none if it is no JSON. -/
def manifestData (cs : List Char) : Except ManifestError (Option Json) :=
  match Json.read cs with
  | .ok v => .ok (some v)
  | .error (.tooDeep container) => .error (.tooDeep container)
  | .error _ => .ok none

/-- The data in the manifest; none if it cannot be read. -/
def manifest (checkout : Checkout) : Except ManifestError (Option Json) :=
  match checkout.node? (.ofText manifestName) with
  | some (.file (.text s)) => manifestData s.toList
  | some (.file (.bytes b)) =>
    match Text.Utf8.decode b with
    | .ok cs => manifestData cs
    | .error _ => .ok none
  | _ => .ok none

/-- Adds a value to a set; of values that count as one the first stays. -/
def addElement (found : List Json) (v : Json) : Except ManifestError (List Json) :=
  match v with
  | .arr _ | .obj _ => .error (.notAName v.kindName)
  | v => .ok (if found.any v.sameElement then found else found ++ [v])

/-- The values of a set, in the order in which they first occur. -/
def elements (values : List Json) : Except ManifestError (List Json) :=
  values.foldlM addElement []

/-- The names of exposed modules; none if every module is exposed.  They are a list, or lists by
category. -/
def exposed (checkout : Checkout) : Except ManifestError (Option (List Json)) := do
  match ((← manifest checkout).bind Json.fields?).bind (Json.field? · exposedField) with
  | some (.arr names) => (elements names).map some
  | some (.obj groups) =>
    (elements (groups.flatMap fun (_, group) =>
      match group with
      | .arr names => names
      | _ => [])).map some
  | _ => return none

def isExposed (names : Option (List Json)) (module : String) : Bool :=
  match names with
  | none => true
  | some names => names.contains (.str module)

end Checkout
end SignatureSearch
