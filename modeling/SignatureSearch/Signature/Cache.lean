/-
# `Signature.Cache` — the index in use

The cache holds one index, counts how often it was replaced, and remembers when
it was last.  Questions go to the index that is held at the moment; an index
that was taken out stays what it is when another one is put in.
-/
import SignatureSearch.Signature.Index

namespace SignatureSearch.Signature

/-- A holder of the index in use. -/
structure Cache (ι : Type) where
  index : Index ι
  generation : Nat
  replacedAt : Option String
deriving DecidableEq, Repr

namespace Cache

variable {ι : Type}

def start (index : Index ι) : Cache ι := ⟨index, 0, none⟩

def empty : Cache ι := start .empty

/-- Puts another index in, at the given time. -/
def replace (cache : Cache ι) (now : String) (index : Index ι) : Cache ι where
  index
  generation := cache.generation + 1
  replacedAt := some now

/-- What was handed over to be put in is no index. -/
inductive NotAnIndex where
  | refused
deriving DecidableEq, Repr

def NotAnIndex.message : NotAnIndex → String
  | .refused => "replace() expects a SignatureIndex"

def replaceWith (cache : Cache ι) (now : String) : Option (Index ι) → Except NotAnIndex (Cache ι)
  | some index => .ok (cache.replace now index)
  | none => .error .refused

/-- Builds an index and puts it in. -/
def rebuild (cache : Cache ι) (now : String) (pairs : List (Pair ι)) : Cache ι :=
  cache.replace now (.build pairs)

/-- Builds an index from signatures as they are stored and puts it in. -/
def rebuildStored (cache : Cache ι) (now : String) (stored : List (Json × ι)) :
    Except KeyError (Cache ι) :=
  (Index.ofStored stored).map (cache.replace now)

/-- Asks the index in use for a page of identifiers. -/
def search (cache : Cache ι) (s : String) (limit : Int) (offset : Option Int) :
    Except Index.QueryError (Option (List ι)) :=
  cache.index.search s limit offset

/-- Asks the index in use for signatures that start with a text. -/
def suggest (cache : Cache ι) (s : String) (limit : Int) :
    Except Index.QueryError (Option (List String)) :=
  cache.index.suggest s limit

end Cache
end SignatureSearch.Signature
