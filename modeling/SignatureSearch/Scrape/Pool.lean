/-
# `Scrape.Pool` — workers that bring checkouts up to date

Workers share the packages of a scrape.  One that is free takes the next package
that nobody has taken, and then does one thing after another for it:

    take       finds the place of the checkout
    look       looks whether there is a checkout
    prepare    makes the directory in which a clone is put, if there is none
    answer     hears from git what came of the pull or the clone

Between two of these other workers may do any of theirs, with the same files.
What git answers, and what it makes of the files, is up to git.

The outcomes are collected in the order of the packages, whatever the order in
which the workers get done with them.  An error that concerns more than its
package ends the collection, whether or not the packages after it are done.
-/
import SignatureSearch.Scrape

namespace SignatureSearch.Scrape

/-- The names that lead to the checkout of a package. -/
def Surroundings.place (w : Surroundings) (package : Package) :
    Except Repository.Error (List String) :=
  Repository.place w.root w.cacheDir package.name

namespace Pool

/-- How far the work on a package has come. -/
inductive Stage where
  | waits
  /-- A worker is about to look whether there is a checkout. -/
  | looks (names : List String)
  /-- There is none, and a worker is about to make the directory in which it is put. -/
  | prepares (names : List String)
  /-- Git is asked for the checkout: to pull it if there is one, and to clone it if not. -/
  | asks (names : List String)
  | done (place : Except Repository.Error (List String))

namespace Stage

/-- Whether nobody has taken the package. -/
def isWaiting : Stage → Bool
  | .waits => true
  | _ => false

/-- Whether a worker is at work on the package. -/
def isBusy : Stage → Bool
  | .waits | .done _ => false
  | _ => true

/-- The stage of a package that a worker has taken, by the place of its checkout. -/
def ofPlace : Except Repository.Error (List String) → Stage
  | .ok names => .looks names
  | .error e => .done (.error e)

/-- What a worker does next on its own, and the files afterwards. -/
def proceed? (w : Surroundings) (tree : FileTree) : Stage → Option (Stage × FileTree)
  | .looks names => some (if tree.has names then .asks names else .prepares names, tree)
  | .prepares names =>
    match Repository.prepare w.root names tree with
    | .ok tree => some (.asks names, tree)
    | .error e => some (.done (.error e), tree)
  | _ => none

end Stage

/-- What git's answer means: it may give the reason of a failure. -/
def reply (name : PackageName) (names : List String) :
    Option String → Except Repository.Error (List String)
  | none => .ok names
  | some reason => .error (.sync name reason)

/-- What git's answer leads to, if it was asked. -/
def Stage.answer? (name : PackageName) (failure : Option String) : Stage → Option Stage
  | .asks names => some (.done (reply name names failure))
  | _ => none

/-- What happens next, and to which package by its position. -/
inductive Step where
  | take
  | proceed (i : Nat)
  /-- Git answers, and leaves these files. -/
  | answer (i : Nat) (failure : Option String) (tree : FileTree)
deriving DecidableEq, Repr

/-- The files, and how far the work has come on the package at each position. -/
structure State where
  tree : FileTree
  stage : Nat → Stage := fun _ => .waits

namespace State

/-- Nobody has taken a package yet. -/
def start (w : Surroundings) : State where
  tree := w.tree

/-- The state when one package has come to another stage. -/
def put (s : State) (i : Nat) (stage : Stage) (tree : FileTree) : State where
  tree
  stage := fun j => if j = i then stage else s.stage j

def busy (packages : List Package) (s : State) : Nat :=
  (List.range packages.length).countP fun i => (s.stage i).isBusy

/-- The first package that nobody has taken. -/
def next? (packages : List Package) (s : State) : Option Nat :=
  (List.range packages.length).find? fun i => (s.stage i).isWaiting

/-- What one step leads to, with so many workers. -/
def step (w : Surroundings) (size : Int) (packages : List Package) (s : State) :
    Step → Option State
  | .take =>
    if s.busy packages < size then do
      let i ← s.next? packages
      let package ← packages[i]?
      return s.put i (.ofPlace (w.place package)) s.tree
    else none
  | .proceed i =>
    if i < packages.length then
      ((s.stage i).proceed? w s.tree).map fun (stage, tree) => s.put i stage tree
    else none
  | .answer i failure tree => do
    let package ← packages[i]?
    let stage ← (s.stage i).answer? package.name failure
    return s.put i stage tree

def run (w : Surroundings) (size : Int) (packages : List Package) (s : State) :
    List Step → Option State
  | [] => some s
  | first :: rest => (s.step w size packages first).bind (run w size packages · rest)

/-- The packages, with how far the work on them has come. -/
def tasks (packages : List Package) (s : State) : List (Package × Stage) :=
  packages.zipIdx.map fun (package, i) => (package, s.stage i)

end State

/-- Collects the outcomes in order; none as long as the next one is not there. -/
def collect : List (Package × Stage) → Option (Except Error (List Synced))
  | [] => some (.ok [])
  | (package, .done (.ok names)) :: rest => (collect rest).map (·.map ((package, names) :: ·))
  | (_, .done (.error e)) :: rest =>
    if isTolerated e then collect rest else some (.error (.repository e))
  | _ => none

/-- What the pool hands back; none as long as its outcome is open. -/
def State.result (packages : List Package) (s : State) : Option (Except Error (List Synced)) :=
  collect (s.tasks packages)

end Pool
end SignatureSearch.Scrape
