/-
# `FileTree` — files and directories

A tree is given by its entries: a list of names from the root, and what is
there.  Every beginning of such a list is a directory, whether or not it has an
entry of its own.
-/
import SignatureSearch.Path
import SignatureSearch.SourceFile

namespace SignatureSearch

inductive FileTree.Node where
  | file (content : SourceFile.Content)
  /-- A file that cannot be read. -/
  | unreadable
  | directory
deriving DecidableEq, Repr

/-- Files and directories below a root. -/
structure FileTree where
  entries : List (List String × FileTree.Node)
deriving DecidableEq, Repr

namespace FileTree

def empty : FileTree := ⟨[]⟩

/-- Puts something at a path; what was there before is gone. -/
def put (tree : FileTree) (names : List String) (node : Node) : FileTree :=
  ⟨tree.entries.filter (·.1 ≠ names) ++ [(names, node)]⟩

/-- The tree of the given files and directories, where later ones take the place of earlier ones. -/
def ofPaths (files : List (Path × Node)) : FileTree :=
  files.foldl (fun tree (path, node) => tree.put path.resolve.names node) empty

def node? (tree : FileTree) (names : List String) : Option Node :=
  tree.entries.lookup names

def isDirectory (tree : FileTree) (names : List String) : Bool :=
  names.isEmpty || tree.entries.any fun (path, node) =>
    names.isPrefixOf path && (names.length < path.length || node = .directory)

def isFile (tree : FileTree) (names : List String) : Bool :=
  match tree.node? names with
  | some (.file _) | some .unreadable => true
  | _ => false

def has (tree : FileTree) (names : List String) : Bool :=
  tree.isDirectory names || tree.isFile names

/-- The files below a path, by their names from there. -/
def filesBelow (tree : FileTree) (names : List String) : List (List String) :=
  tree.entries.filterMap fun (path, node) =>
    if node ≠ .directory && names.isPrefixOf path && names.length < path.length then
      some (path.drop names.length)
    else none

/-- The directory that a path leads to, where two dots lead back; none if a name on the way is no
directory.  Above the root there is the root again. -/
def directory? (tree : FileTree) (names : List String) : Option (List String) :=
  names.foldlM (fun here name =>
    if name = ".." then some here.dropLast
    else if tree.isDirectory (here ++ [name]) then some (here ++ [name]) else none) []

/-- The entry that a path leads to, where two dots lead back. -/
def follow? (tree : FileTree) (names : List String) : Option Node := do
  let name ← names.getLast?
  let here ← tree.directory? names.dropLast
  tree.node? (here ++ [name])

/-- The beginning of a path that is a file, if there is one: nothing can be made below it. -/
def obstacle? (tree : FileTree) (names : List String) : Option (List String) :=
  ((List.range (names.length + 1)).map names.take).find? tree.isFile

/-- What is in a tree, seen from further above. -/
def raise (tree : FileTree) (names : List String) : FileTree :=
  ⟨tree.entries.map fun (path, node) => (names ++ path, node)⟩

def makeDirectory (tree : FileTree) (names : List String) : FileTree :=
  if tree.isDirectory names then tree else ⟨tree.entries ++ [(names, .directory)]⟩

def graft (tree : FileTree) (names : List String) (below : FileTree) : FileTree :=
  below.entries.foldl (fun tree (path, node) => tree.put (names ++ path) node)
    (tree.put names .directory)

end FileTree
end SignatureSearch
