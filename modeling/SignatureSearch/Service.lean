/-
# `Service` — the state of the running service

The service answers from the index in its cache.  Loading reads all signatures
from the store, builds an index and puts it into the cache; when the store
cannot be read, the cache stays as it is.
-/
import SignatureSearch.Database
import SignatureSearch.Signature.Cache

namespace SignatureSearch

structure Service where
  client : Store.Client
  cache : Signature.Cache Int
  /-- The key file without which the service cannot reach the store, if it is missing. -/
  missingKey : Option String := none
deriving DecidableEq, Repr

namespace Service

open Store (Failure Action Interruption)

def onStore {α : Type} (job : StateM Store.Client α) : StateM Service α := fun s =>
  let (result, client) := job.run s.client
  (result, { s with client })

/-- Runs an action on the store, if the service can reach it. -/
def database {α : Type} (action : Action α) : StateM Service (Except Failure α) := do
  match (← get).missingKey with
  | some keyFile => return .error (.unavailable keyFile)
  | none => onStore action.run

def buildIndex (stored : List (Json × Int)) : Except Failure (Signature.Index Int) :=
  (Signature.Index.ofStored stored).mapError .unindexable

/-! ## Loading -/

/-- Puts an index into the cache; the cache afterwards. -/
def install (now : String) (index : Signature.Index Int) :
    StateM Service (Signature.Cache Int) := do
  modify fun s => { s with cache := s.cache.replace now index }
  return (← get).cache

/-- What became of loading the index. -/
inductive Load where
  /-- The store could not be read. -/
  | unread (failure : Failure)
  /-- What the store holds cannot be indexed. -/
  | unbuilt (failure : Failure)
  | installed (cache : Signature.Cache Int)
deriving DecidableEq, Repr

/-- Reads all signatures and puts their index into the cache. -/
def reload (settings : Settings) (now : String) (stop : Option Interruption := none) :
    StateM Service Load := do
  match ← database (Database.allSignatures settings stop) with
  | .error failure => return .unread failure
  | .ok stored =>
    match buildIndex stored with
    | .error failure => return .unbuilt failure
    | .ok index => return .installed (← install now index)

/-- Loads the first index; whether there is one.  A store that cannot be read is no failure. -/
def load (settings : Settings) (now : String) (stop : Option Interruption := none) :
    StateM Service (Except Failure Bool) := do
  match ← reload settings now stop with
  | .unread _ => return .ok false
  | .unbuilt failure => return .error failure
  | .installed _ => return .ok true

/-- Starts the service; the generation of the index it starts with. -/
def start (settings : Settings) (now : String) : StateM Service (Except Failure Nat) := do
  match ← load settings now with
  | .error failure => return .error failure
  | .ok _ => return .ok (← get).cache.generation

end Service
end SignatureSearch
