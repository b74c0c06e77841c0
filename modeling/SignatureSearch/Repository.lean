/-
# `Repository` — checkouts of packages in a cache directory

The checkout of a package lies below the cache directory, under the author and
the project.  A name that leads out of the directory has no place there.  To
bring a checkout up to date, one that exists is pulled, and one that does not
is cloned, into a directory that is made for it unless a file is in its way.
`Remote` says what the other side answers.
-/
import SignatureSearch.FileTree
import SignatureSearch.Package
import SignatureSearch.Settings

namespace SignatureSearch.Repository

/-- Why a package has no checkout. -/
inductive Error where
  /-- The name of the package leads out of the cache directory. -/
  | outside (name : PackageName)
  /-- The path holds a character that no path may hold. -/
  | nullCharacter
  /-- The directory in which the checkout would be put cannot be made: it is a file, or there is a
  file on the way to it. -/
  | blocked (directory : Path) (isFile : Bool)
  /-- The checkout could not be brought up to date. -/
  | sync (name : PackageName) (reason : String)
deriving DecidableEq, Repr

def Error.message : Error → String
  | .outside name => s!"Invalid path for package {name.text}"
  | .nullCharacter => "embedded null byte"
  | .blocked directory true => s!"[Errno 17] File exists: {Text.quoted directory.text}"
  | .blocked directory false => s!"[Errno 20] Not a directory: {Text.quoted directory.text}"
  | .sync name reason => s!"Failed to sync {name.text}: {reason}"

/-- Whether a name on the way of a path holds a character that no path may hold. -/
def holdsNull (path : Path) : Bool :=
  path.names.any (·.toList.contains (Char.ofNat 0))

def location (cacheDir : Path) (name : PackageName) : Except Error Path :=
  let root := cacheDir.resolve
  let path := (root.join (.ofText name.author)).join (.ofText name.project)
  if holdsNull cacheDir || holdsNull path then .error .nullCharacter
  else if path.resolve.isBelow root then .ok path.resolve
  else .error (.outside name)

/-! ## Bringing checkouts up to date -/

inductive Condition where
  | sound
  /-- The directory is no repository. -/
  | notRepository
  /-- The directory cannot be opened. -/
  | noSuchPath
  /-- The repository can be opened, but not pulled. -/
  | pullFails
deriving DecidableEq, Repr

/-- The other side: what can be cloned, and the condition of checkouts by their paths. -/
structure Remote where
  sources : List (String × FileTree)
  conditions : List (String × Condition)
deriving DecidableEq, Repr

/-- What is asked of the version control system. -/
inductive Command where
  | openAt (path : String)
  | pull (path : String) (timeout : Int)
  | clone (url path : String)
deriving DecidableEq, Repr

/-- The environment in which the commands run: they never ask for a password. -/
def environment : String := "\x7b'GIT_TERMINAL_PROMPT': '0'\x7d"

/-- A command as it is logged.  The parent of a clone always exists by then. -/
def Command.text : Command → String
  | .openAt path => s!"open {path}"
  | .pull path timeout => s!"pull {path} --depth 1 timeout={timeout} env={environment}"
  | .clone url path => s!"clone {url} {path} depth=1 env={environment} parent=True"

/-- The reason that a failed command gives. -/
def commandFailure (command : String) (code : Nat) : String :=
  s!"Cmd('{command}') failed due to: exit code({code})\n  cmdline: {command}"

/-- What syncing a package comes to. -/
structure Outcome where
  /-- The names that lead to the checkout. -/
  place : Except Error (List String)
  /-- The files afterwards. -/
  tree : FileTree
  commands : List Command

/-- The names that lead from a directory to the checkout of a package. -/
def place (root cacheDir : Path) (name : PackageName) : Except Error (List String) :=
  (location cacheDir name).map root.resolve.namesTo

/-- Opens and pulls a checkout. -/
def update (settings : Settings) (remote : Remote) (name : PackageName) (names : List String)
    (tree : FileTree) : Outcome :=
  let path := "/".intercalate names
  let pull := Command.pull path settings.gitTimeout
  match (remote.conditions.lookup path).getD .sound with
  | .sound => ⟨.ok names, tree, [.openAt path, pull]⟩
  | .pullFails =>
    ⟨.error (.sync name (commandFailure "pull" 1)), tree, [.openAt path, pull]⟩
  | .notRepository | .noSuchPath => ⟨.error (.sync name path), tree, [.openAt path]⟩

/-- Makes the directory in which a checkout is put. -/
def prepare (root : Path) (names : List String) (tree : FileTree) : Except Error FileTree :=
  match tree.obstacle? names.dropLast with
  | some file =>
    .error (.blocked (root.join ⟨.none, names.dropLast⟩).resolve (file = names.dropLast))
  | none => .ok (tree.makeDirectory names.dropLast)

def clone (remote : Remote) (root : Path) (url : String) (name : PackageName)
    (names : List String) (tree : FileTree) : Outcome :=
  match prepare root names tree with
  | .error e => ⟨.error e, tree, []⟩
  | .ok tree =>
    let commands := [Command.clone url ("/".intercalate names)]
    match remote.sources.lookup url with
    | some files => ⟨.ok names, tree.graft names files, commands⟩
    | none => ⟨.error (.sync name (commandFailure "clone" 128)), tree, commands⟩

/-- Brings the checkout of a package up to date, where `tree` shows the files in `root`.  An address
that is not given, or empty, follows from the host in the settings. -/
def sync (settings : Settings) (remote : Remote) (root cacheDir : Path) (package : Package)
    (url : Option String) (tree : FileTree) : Outcome :=
  match place root cacheDir package.name with
  | .error e => ⟨.error e, tree, []⟩
  | .ok names =>
    if tree.has names then update settings remote package.name names tree
    else
      let url := (url.filter (· ≠ "")).getD (package.repositoryUrl settings.gitHostUrl)
      clone remote root url package.name names tree

end SignatureSearch.Repository
