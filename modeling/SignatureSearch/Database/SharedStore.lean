/-
# `Database.SharedStore` — replacements that share a store

Any number of calls replace the functions of packages at the same time, in one
store.  A call does one thing after another, and the store does each of them at
once:

    query      finds the documents of the package
    reserve    takes identifiers from the counter, if there are functions
    commit     commits the next batch: first those that write, then those that
               delete what was found and is out of date

Between two of its steps other calls may make any of theirs.  A call may fail
before each of its steps, and then makes no more of them; a step that takes
effect although its call fails is a step, and the failure comes after it.
-/
import SignatureSearch.Database

namespace SignatureSearch.Database.SharedStore

open Store (Write)

/-- What a call is asked to do: every draft is of the package. -/
structure Replacement where
  packageId : String
  drafts : List FunctionDraft
  /-- How many documents one commit may touch. -/
  batchSize : Nat
  owned : ∀ draft ∈ drafts, draft.packageId = packageId := by decide
  batchSize_pos : 1 ≤ batchSize := by decide
deriving DecidableEq, Repr

/-- The settings under which a call is made. -/
def Replacement.settings (r : Replacement) (settings : Settings) : Settings :=
  { settings with batchSize := r.batchSize }

/-- The batches that a call commits, in order. -/
def Replacement.plan (r : Replacement) (settings : Settings) (stale : List String)
    (records : List FunctionRecord) : List (List Write) :=
  writeBatches (r.settings settings) records ++ deleteBatches (r.settings settings) stale records

/-- How far a call has come. -/
inductive Stage where
  | idle
  /-- It is about to look for the documents of its package. -/
  | queries (r : Replacement)
  /-- It is about to reserve identifiers, and knows what it found. -/
  | reserves (r : Replacement) (stale : List String)
  /-- It is about to commit a batch, and others after it. -/
  | commits (r : Replacement) (records : List FunctionRecord) (batch : List Write)
      (rest : List (List Write))
  | returned (r : Replacement) (records : List FunctionRecord)
  | failed (r : Replacement)
deriving DecidableEq, Repr

/-- What a call is asked to do, while it is under way. -/
def Stage.call? : Stage → Option Replacement
  | .queries r | .reserves r _ | .commits r _ _ _ => some r
  | _ => none

/-- The stage of a call that has these batches left: without any it returns. -/
def Stage.after (r : Replacement) (records : List FunctionRecord) : List (List Write) → Stage
  | [] => .returned r records
  | batch :: rest => .commits r records batch rest

/-- What a call does next. -/
inductive Step where
  | begin (r : Replacement)
  | proceed
  | fail
deriving DecidableEq, Repr

/-- What is seen of a call. -/
inductive Event (τ : Type) where
  | began (t : τ) (r : Replacement)
  /-- It took so many identifiers, from the first one on. -/
  | reserved (t : τ) (first : Json) (count : Nat)
  | committed (t : τ) (writes : List Write)
  | returned (t : τ) (r : Replacement) (records : List FunctionRecord)
  | failed (t : τ) (r : Replacement)
deriving DecidableEq, Repr

/-- What is seen of a call that comes to a stage. -/
def Stage.events {τ : Type} (t : τ) : Stage → List (Event τ)
  | .queries r => [.began t r]
  | .returned r records => [.returned t r records]
  | .failed r => [.failed t r]
  | _ => []

/-- A store, and how far the calls have come. -/
structure State (τ : Type) where
  store : Store
  stage : τ → Stage := fun _ => .idle

namespace State

variable {τ : Type} [DecidableEq τ]

def setStage (s : State τ) (t : τ) (stage : Stage) : State τ :=
  { s with stage := fun t' => if t' = t then stage else s.stage t' }

def enter (s : State τ) (t : τ) (stage : Stage) : State τ × List (Event τ) :=
  (s.setStage t stage, stage.events t)

/-- A call finds the documents of its package. -/
def query (settings : Settings) (s : State τ) (t : τ) (r : Replacement) :
    State τ × List (Event τ) :=
  let found := s.store.documentsWith (functions settings) "packageId" (.str r.packageId)
  let stale := found.map (·.1)
  s.enter t (if r.drafts.isEmpty then .after r [] (r.plan settings stale []) else .reserves r stale)

/-- A call reserves identifiers for its functions. -/
def reserve (settings : Settings) (s : State τ) (t : τ) (r : Replacement) (stale : List String) :
    State τ × List (Event τ) :=
  match advance r.drafts.length (s.store.get? (counterKey settings)) with
  | .error _ => s.enter t (.failed r)
  | .ok (first, fields) =>
    let (s', seen) := enter { s with store := s.store.put (counterKey settings) fields } t <|
      match number first r.drafts with
      | .error _ => .failed r
      | .ok records => .after r records (r.plan settings stale records)
    (s', .reserved t first r.drafts.length :: seen)

def commit (s : State τ) (t : τ) (r : Replacement) (records : List FunctionRecord)
    (batch : List Write) (rest : List (List Write)) : State τ × List (Event τ) :=
  let (s', seen) := enter { s with store := s.store.commit batch } t (.after r records rest)
  (s', .committed t batch :: seen)

/-- What one call does, and what is seen of it. -/
def step (settings : Settings) (s : State τ) (t : τ) (step : Step) :
    Option (State τ × List (Event τ)) :=
  match step, s.stage t with
  | .begin r, .idle => some (s.enter t (.queries r))
  | .proceed, .queries r => some (s.query settings t r)
  | .proceed, .reserves r stale => some (s.reserve settings t r stale)
  | .proceed, .commits r records batch rest => some (s.commit t r records batch rest)
  | .fail, stage => stage.call?.map fun r => s.enter t (.failed r)
  | _, _ => none

def run (settings : Settings) (s : State τ) : List (τ × Step) → Option (State τ × List (Event τ))
  | [] => some (s, [])
  | (t, step) :: rest =>
    (s.step settings t step).bind fun (next, seen) =>
      (next.run settings rest).map fun (last, more) => (last, seen ++ more)

end State
end SignatureSearch.Database.SharedStore
