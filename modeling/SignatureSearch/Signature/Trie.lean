/-
# `Signature.Trie` — a prefix tree of signatures

The tree is written as a list of branches: each branch has its symbol, the
identifiers stored at its end, the branches below it, and the branches beside
it.  Branches stand in the order in which they came, and so does a walk through
the tree, which visits a branch before those below it.
-/
namespace SignatureSearch.Signature

/-- The branches that leave a place in the tree. -/
inductive Trie (α ι : Type) where
  | nil
  | branch (a : α) (ids : List ι) (below : Trie α ι) (beside : Trie α ι)
deriving DecidableEq, Repr

namespace Trie

variable {α ι : Type}

/-- A single path that ends with an identifier. -/
def path (id : ι) (a : α) : List α → Trie α ι
  | [] => .branch a [id] .nil .nil
  | b :: rest => .branch a [] (path id b rest) .nil

/-- Adds an identifier at the end of a non-empty key. -/
def insert [DecidableEq α] (id : ι) (a : α) (rest : List α) : Trie α ι → Trie α ι
  | .nil => path id a rest
  | .branch b ids below beside =>
    if a = b then
      match rest with
      | [] => .branch b (ids ++ [id]) below beside
      | c :: rest => .branch b ids (below.insert id c rest) beside
    else .branch b ids below (beside.insert id a rest)

/-- The branch of a symbol: its identifiers and what is below it. -/
def child? [DecidableEq α] (a : α) : Trie α ι → Option (List ι × Trie α ι)
  | .nil => none
  | .branch b ids below beside => if a = b then some (ids, below) else beside.child? a

/-- Follows a key from a place with the given identifiers and branches. -/
def find? [DecidableEq α] (ids : List ι) (t : Trie α ι) : List α → Option (List ι × Trie α ι)
  | [] => some (ids, t)
  | a :: rest =>
    match t.child? a with
    | none => none
    | some (ids, below) => find? ids below rest

def symbols : Trie α ι → List α
  | .nil => []
  | .branch a _ _ beside => a :: beside.symbols

/-- A key in the spelling of the tree: where a branch has a symbol that counts as the same, that
symbol is taken. -/
def spell [DecidableEq α] (same : α → α → Bool) (t : Trie α ι) : List α → List α
  | [] => []
  | a :: rest =>
    match t.symbols.find? (same a) with
    | none => a :: rest
    | some b => b :: spell same (((t.child? b).map (·.2)).getD .nil) rest

/-- A place in the tree on a walk. -/
structure Visit (α : Type) where
  key : List α
  /-- Whether identifiers are stored there. -/
  isStored : Bool
  /-- The symbols that lead further. -/
  next : List α
deriving DecidableEq, Repr

/-- The places below one with the given key, in the order of the walk. -/
def visits (key : List α) : Trie α ι → List (Visit α)
  | .nil => []
  | .branch a ids below beside =>
    ⟨key ++ [a], !ids.isEmpty, below.symbols⟩ :: below.visits (key ++ [a]) ++ beside.visits key

end Trie
end SignatureSearch.Signature
