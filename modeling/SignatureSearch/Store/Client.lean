/-
# `Store.Client` — calls to the store

Everything that is done with the store is a sequence of calls.  A call is
recorded, then it may be refused, then it acts.  Refusals are planned: a fault
lets some calls of an operation pass and refuses some after them.  An action is
a computation with calls; what it did to the store stays when it fails.
-/
import SignatureSearch.Store
import SignatureSearch.Store.Failure

namespace SignatureSearch.Store

inductive Operation where
  | get
  | set
  | update
  | stream
  | commitBatch
  | getAll
  | begin
  | commit
  | rollback
deriving DecidableEq, Repr

def Operation.name : Operation → String
  | .get => "doc.get"
  | .set => "doc.set"
  | .update => "doc.update"
  | .stream => "query.stream"
  | .commitBatch => "batch.commit"
  | .getAll => "get_all"
  | .begin => "txn.begin"
  | .commit => "txn.commit"
  | .rollback => "txn.rollback"

def Operation.all : List Operation :=
  [.get, .set, .update, .stream, .commitBatch, .getAll, .begin, .commit, .rollback]

def Operation.ofName? (name : String) : Option Operation :=
  Operation.all.find? (·.name == name)

inductive Call where
  | get (key : DocumentKey)
  | set (key : DocumentKey)
  | update (key : DocumentKey)
  | stream (collection : String)
  | commitBatch (sets deletes : Nat)
  | getAll (ids : List String)
  | begin
  | commit
  | rollback
deriving DecidableEq, Repr

def Call.operation : Call → Operation
  | .get _ => .get
  | .set _ => .set
  | .update _ => .update
  | .stream _ => .stream
  | .commitBatch _ _ => .commitBatch
  | .getAll _ => .getAll
  | .begin => .begin
  | .commit => .commit
  | .rollback => .rollback

/-- What a call is about, as it is recorded. -/
def Call.subject : Call → String
  | .get key | .set key | .update key => " " ++ key.text
  | .stream collection => " " ++ collection
  | .commitBatch sets deletes => s!" set={sets} delete={deletes}"
  | .getAll ids => String.join (ids.map (" " ++ ·))
  | .begin | .commit | .rollback => ""

def Call.text (call : Call) : String :=
  call.operation.name ++ call.subject

/-- A planned refusal: how many calls of an operation still pass, and how many are refused then. -/
structure Fault where
  operation : Operation
  skip : Nat
  times : Nat
  kind : Refusal
  message : String
deriving DecidableEq, Repr

/-- What faults do to a call of an operation: the first that strikes refuses it, and those before
let it pass. -/
def strike (operation : Operation) : List Fault → Option Failure × List Fault
  | [] => (none, [])
  | fault :: rest =>
    if fault.operation = operation && fault.skip = 0 && 0 < fault.times then
      (some (.refused fault.kind fault.message), { fault with times := fault.times - 1 } :: rest)
    else
      let (failure, rest) := strike operation rest
      let fault :=
        if fault.operation = operation then { fault with skip := fault.skip - 1 } else fault
      (failure, fault :: rest)

/-- A store, the faults planned for it, and the calls that were made, the last one first. -/
structure Client where
  store : Store
  faults : List Fault
  calls : List Call
deriving DecidableEq, Repr

/-- A computation with calls to the store. -/
abbrev Action := ExceptT Failure (StateM Client)

/-- Makes a call: it is recorded, and perhaps refused. -/
def call (c : Call) : Action Unit := do
  let client ← get
  let (failure, faults) := strike c.operation client.faults
  set { client with faults, calls := c :: client.calls }
  match failure with
  | some failure => throw failure
  | none => return

def modifyStore (f : Store → Store) : Action Unit :=
  modify fun client => { client with store := f client.store }

def readDocument (key : DocumentKey) : Action (Option Fields) := do
  call (.get key)
  return (← get).store.get? key

def setDocument (key : DocumentKey) (fields : Fields) : Action Unit := do
  call (.set key)
  modifyStore (·.put key fields)

/-- Changes fields of a document that exists. -/
def updateDocument (key : DocumentKey) (updates : Fields) : Action Unit := do
  call (.update key)
  match (← get).store.get? key with
  | none => throw (.noDocument key.text)
  | some fields =>
    modifyStore (·.put key (updates.foldl (fun fields (k, v) => Json.setField fields k v) fields))

def commitBatch (writes : List Write) : Action Unit := do
  let sets := writes.countP fun
    | .set _ _ => true
    | .delete _ => false
  call (.commitBatch sets (writes.length - sets))
  modifyStore (·.commit writes)

def queryWith (collection field : String) (value : Json) : Action (List (String × Fields)) := do
  call (.stream collection)
  return (← get).store.documentsWith collection field value

/-- The documents of a collection that have a field, in the order of its values. -/
def queryBy (collection field : String) : Action (List (String × Fields)) := do
  call (.stream collection)
  return (← get).store.documentsBy collection field

/-- How a stream breaks off: after so many documents it is refused. -/
structure Interruption where
  after : Nat
  kind : Refusal
  message : String
deriving DecidableEq, Repr

/-- Reads the documents of a stream as they come.  Of a stream that breaks off nothing is left. -/
def readStream {α : Type} (read : String × Fields → Except Failure α)
    (documents : List (String × Fields)) : Option Interruption → Except Failure (List α)
  | none => documents.mapM read
  | some stop => do
    let found ← (documents.take stop.after).mapM read
    if documents.length < stop.after then return found
    throw (.refused stop.kind stop.message)

def inOrder (ids : List String) : List String :=
  ids.mergeSort (fun a b => decide (a ≤ b))

/-- Reads several documents of a collection; those that do not exist are left out.  The store is
free to answer in an order of its own, `arrange`. -/
def readAll (collection : String) (ids : List String)
    (arrange : List String → List String := inOrder) : Action (List Fields) := do
  call (.getAll ids)
  let store := (← get).store
  return (arrange ids).filterMap fun id => store.get? ⟨collection, id⟩

/-! ## Transactions -/

/-- How often a transaction is tried. -/
def maxAttempts : Nat := 5

/-- One attempt at a transaction that reads a document and writes it.  The write takes effect at the
commit; the result is none if the commit was aborted. -/
def attempt {α : Type} (key : DocumentKey) (body : Option Fields → Except Failure (α × Fields)) :
    Action (Option α) := do
  call .begin
  let found ← readDocument key
  let (result, fields) ← liftM (body found)
  tryCatch
    (do
      call .commit
      modifyStore (·.put key fields)
      return some result)
    fun
      | .refused .aborted _ => return none
      | failure => throw failure

/-- Tries a transaction again while its commit is aborted. -/
def attempts {α : Type} (key : DocumentKey) (body : Option Fields → Except Failure (α × Fields)) :
    Nat → Action α
  | 0 => throw (.contention maxAttempts)
  | n + 1 => do
    match ← attempt key body with
    | some result => return result
    | none => attempts key body n

/-- Reads a document and writes it, in a transaction.  One that fails is rolled back. -/
def transact {α : Type} (key : DocumentKey) (body : Option Fields → Except Failure (α × Fields)) :
    Action α :=
  tryCatch (attempts key body maxAttempts) fun failure => do
    call .rollback
    throw failure

/-- Runs an action that must not fail: a failure gives the fallback. -/
def orElse {α : Type} (action : Action α) (fallback : α) : Action α :=
  tryCatch action fun _ => pure fallback

end SignatureSearch.Store
