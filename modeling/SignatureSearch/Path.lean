/-
# `Path` — paths with slashes

A path is a root and a list of names.  Empty names and single dots are dropped
when it is read; two dots are kept, and only `resolve` takes them away.  A path
with exactly two slashes in front has a root of its own.
-/
import SignatureSearch.Text.Case
import SignatureSearch.Text.Search

namespace SignatureSearch

/-- What a path starts from. -/
inductive Path.Root where
  /-- The path is relative. -/
  | none
  /-- One slash, or three and more. -/
  | slash
  /-- Exactly two slashes. -/
  | doubleSlash
deriving DecidableEq, Repr

/-- A path: where it starts from, and its names. -/
structure Path where
  root : Path.Root
  names : List String
deriving DecidableEq, Repr

namespace Path

def Root.text : Root → String
  | .none => ""
  | .slash => "/"
  | .doubleSlash => "//"

/-- A name that says where to go: neither empty nor a single dot. -/
def isName (s : String) : Bool :=
  s != "" && s != "."

def ofText (s : String) : Path where
  root :=
    match (s.toList.takeWhile (· == '/')).length with
    | 0 => .none
    | 2 => .doubleSlash
    | _ => .slash
  names := ((Text.splitOn '/' s.toList).map String.ofList).filter isName

/-- The root, if there is one, and the names. -/
def parts (p : Path) : List String :=
  match p.root with
  | .none => p.names
  | root => root.text :: p.names

/-- The text of a path; the path that leads nowhere is a dot. -/
def text (p : Path) : String :=
  match p.root, p.names with
  | .none, [] => "."
  | root, names => root.text ++ "/".intercalate names

/-- One path after another; an absolute one starts anew. -/
def join (p q : Path) : Path :=
  match q.root with
  | .none => { p with names := p.names ++ q.names }
  | _ => q

def lastName? (p : Path) : Option String :=
  p.names.getLast?

/-- A name cut before its suffix.  The suffix is the last dot with what follows it, unless the dot
is the first or the last character. -/
def cutSuffix (name : String) : String × String :=
  let afterDot := (name.toList.reverse.takeWhile (· != '.')).reverse
  let stem := name.toList.take (name.length - afterDot.length - 1)
  if stem.isEmpty || afterDot.isEmpty then (name, "")
  else (String.ofList stem, String.ofList ('.' :: afterDot))

def suffix (p : Path) : String :=
  match p.lastName? with
  | some name => (cutSuffix name).2
  | none => ""

/-- The path without the suffix of its last name; none if there is no last name. -/
def withoutSuffix? (p : Path) : Option Path :=
  p.lastName?.map fun name => { p with names := p.names.dropLast ++ [(cutSuffix name).1] }

def lowerSuffix (p : Path) : String :=
  Text.lower p.suffix

/-- Takes one more name, where two dots lead back; above the root there is nothing. -/
def climb (names : List String) (name : String) : List String :=
  if name = ".." then names.dropLast else names ++ [name]

/-- The absolute path that an absolute path leads to, without two dots in it. -/
def resolve (p : Path) : Path where
  root := .slash
  names := p.names.foldl climb []

/-- The names that lead from some names to others, where two dots lead back. -/
def namesBetween : List String → List String → List String
  | a :: start, b :: goal =>
    if a = b then namesBetween start goal
    else (a :: start).map (fun _ => "..") ++ b :: goal
  | start, goal => start.map (fun _ => "..") ++ goal

/-- The names that lead from a resolved path to another one. -/
def namesTo (p q : Path) : List String :=
  namesBetween p.names q.names

/-- What is left of a path after another one that it begins with.  Two dots are a name like any
other here. -/
def relativeTo? (p q : Path) : Option Path :=
  if p.root = q.root && q.names.isPrefixOf p.names then some ⟨.none, p.names.drop q.names.length⟩
  else none

/-- A path lies strictly below another one. -/
def isBelow (p q : Path) : Bool :=
  p.root = q.root && q.names.isPrefixOf p.names && q.names.length < p.names.length

end Path
end SignatureSearch
