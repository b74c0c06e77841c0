/-
# `Signature.SharedCache` — a cache that threads share

Indexes are objects in memory, known by their numbers, and the fields of the
cache are guarded by a lock.  Any number of threads call the cache at the same
time.  A thread does one thing at a time: it builds, it makes a move at the
lock, or it reads or writes one field.

    current, generation, replacedAt    read one field in a read section
    replace    in a write section writes the index, reads the generation, writes
               the next one, writes the time, and reads both again
    rebuild    makes a new index, inserts one pair after another, then replaces

What a thread gets from a call is known when it leaves its section.  Only an
index that is complete is handed over.
-/
import SignatureSearch.ReadWriteLock.Threads
import SignatureSearch.Signature.Cache

namespace SignatureSearch.Signature.SharedCache

open ReadWriteLock (Mode Move Place Threads)

structure Object (ι : Type) where
  index : Index ι
  /-- Whether all its pairs have been inserted. -/
  isBuilt : Bool
deriving DecidableEq, Repr

structure Fields where
  /-- The number of the index in use. -/
  index : Nat
  generation : Nat
  replacedAt : Option String
deriving DecidableEq, Repr

inductive Field where
  | index
  | generation
  | replacedAt
deriving DecidableEq, Repr

inductive Value where
  | index (number : Nat)
  | generation (n : Nat)
  | replacedAt (time : Option String)
deriving DecidableEq, Repr

def Fields.read (fields : Fields) : Field → Value
  | .index => .index fields.index
  | .generation => .generation fields.generation
  | .replacedAt => .replacedAt fields.replacedAt

/-- How far a write section has come, with what the thread has read in it and the time that it
took from the clock. -/
inductive Progress where
  | nothing
  | indexWritten
  | generationRead (n : Nat)
  | generationWritten
  | timeWritten (now : String)
  | generationReadAgain (now : String) (generation : Nat)
  | done (now : String) (generation : Nat) (replacedAt : Option String)
deriving DecidableEq, Repr

/-- The next access of a write section that puts an index in. -/
def Progress.next (number : Nat) (now : String) (fields : Fields) :
    Progress → Option (Fields × Progress)
  | .nothing => some ({ fields with index := number }, .indexWritten)
  | .indexWritten => some (fields, .generationRead fields.generation)
  | .generationRead n => some ({ fields with generation := n + 1 }, .generationWritten)
  | .generationWritten => some ({ fields with replacedAt := some now }, .timeWritten now)
  | .timeWritten now => some (fields, .generationReadAgain now fields.generation)
  | .generationReadAgain now generation => some (fields, .done now generation fields.replacedAt)
  | .done .. => none

/-- What a thread is about. -/
inductive Task (ι : Type) where
  | idle
  /-- Builds an index, and then perhaps puts it in. -/
  | builds (number : Nat) (rest : List (Pair ι)) (replaces : Bool)
  | reads (field : Field) (seen : Option Value)
  | replaces (number : Nat) (progress : Progress)
deriving DecidableEq, Repr

/-- What a thread may begin. -/
inductive Call (ι : Type) where
  | read (field : Field)
  | replace (number : Nat)
  | build (pairs : List (Pair ι))
  | rebuild (pairs : List (Pair ι))
deriving DecidableEq, Repr

/-- What a thread does. -/
inductive Action (ι : Type) where
  | call (call : Call ι)
  /-- Inserts the next pair, or completes the index. -/
  | build
  /-- Makes the next access to a field; the clock shows the given time. -/
  | access (now : String)
  | move (move : Move)
deriving DecidableEq, Repr

/-- A write section that was completed: what it put in and when, and what it returned. -/
structure Install where
  number : Nat
  now : String
  generation : Nat
  replacedAt : Option String
deriving DecidableEq, Repr

/-- What is seen of a thread. -/
inductive Event (τ : Type) where
  | entered (t : τ) (mode : Mode)
  /-- It left a read section with what it had read. -/
  | answered (t : τ) (field : Field) (value : Value)
  /-- It left a write section. -/
  | installed (t : τ) (install : Install)
deriving DecidableEq, Repr

/-- The memory, the lock, and what the threads are about. -/
structure State (τ ι : Type) where
  threads : Threads τ := {}
  objects : List (Object ι)
  fields : Fields
  task : τ → Task ι := fun _ => .idle

namespace State

variable {τ ι : Type} [DecidableEq τ]

def start (index : Index ι) : State τ ι where
  objects := [⟨index, true⟩]
  fields := ⟨0, 0, none⟩

/-- The state when a thread is about something else. -/
def setTask (s : State τ ι) (t : τ) (task : Task ι) : State τ ι :=
  { s with task := fun t' => if t' = t then task else s.task t' }

def isBuilt (s : State τ ι) (number : Nat) : Bool :=
  (s.objects[number]?.map (·.isBuilt)).getD false

/-- Begins to build a new index. -/
def allocate (s : State τ ι) (t : τ) (pairs : List (Pair ι)) (replaces : Bool) : State τ ι :=
  setTask { s with objects := s.objects ++ [⟨.empty, false⟩] } t
    (.builds s.objects.length pairs replaces)

/-- A thread that is about nothing begins a call. -/
def call (s : State τ ι) (t : τ) (call : Call ι) : Option (State τ ι) :=
  match s.task t, call with
  | .idle, .read field => some (s.setTask t (.reads field none))
  | .idle, .replace number =>
    if s.isBuilt number then some (s.setTask t (.replaces number .nothing)) else none
  | .idle, .build pairs => some (s.allocate t pairs false)
  | .idle, .rebuild pairs => some (s.allocate t pairs true)
  | _, _ => none

def modify (s : State τ ι) (number : Nat) (f : Object ι → Object ι) : State τ ι :=
  { s with objects := s.objects.modify number f }

/-- A thread goes on to build. -/
def build (s : State τ ι) (t : τ) : Option (State τ ι) :=
  match s.task t with
  | .builds number (pair :: rest) replaces =>
    some ((s.modify number fun o =>
      { o with index := o.index.insert (.ofText pair.1) pair.2 }).setTask t
        (.builds number rest replaces))
  | .builds number [] replaces =>
    some ((s.modify number fun o => { o with isBuilt := true }).setTask t
      (if replaces then .replaces number .nothing else .idle))
  | _ => none

/-- A thread inside a section makes its next access. -/
def access (s : State τ ι) (t : τ) (now : String) : Option (State τ ι) :=
  match s.threads.place t, s.task t with
  | .inside .read, .reads field none =>
    some (s.setTask t (.reads field (some (s.fields.read field))))
  | .inside .write, .replaces number progress =>
    (progress.next number now s.fields).map fun (fields, progress) =>
      setTask { s with fields } t (.replaces number progress)
  | _, _ => none

end State

/-- Whether a thread may make a move at this point: it takes the lock before its first access, and
leaves after its last one. -/
def Task.allows {ι : Type} : Task ι → Move → Bool
  | .reads _ none, .arrive .read => true
  | .reads _ (some _), .leave => true
  | .replaces _ .nothing, .arrive .write => true
  | .replaces _ (.done ..), .leave => true
  | _, .wake => true
  | _, .abort => true
  | _, _ => false

/-- What a thread is about after a move: a call ends when its section does, or its wait fails. -/
def Task.after {ι : Type} (task : Task ι) : Move → Task ι
  | .leave => .idle
  | .abort => .idle
  | _ => task

/-- What is seen of a move that led to a place. -/
def Task.events {τ ι : Type} (task : Task ι) (t : τ) : Move → Place → List (Event τ)
  | .leave, .outside =>
    match task with
    | .reads field (some value) => [.answered t field value]
    | .replaces number (.done now generation replacedAt) =>
      [.installed t ⟨number, now, generation, replacedAt⟩]
    | _ => []
  | .arrive _, .inside mode => [.entered t mode]
  | .wake, .inside mode => [.entered t mode]
  | _, _ => []

namespace State

variable {τ ι : Type} [DecidableEq τ]

/-- A thread makes a move at the lock. -/
def move (s : State τ ι) (t : τ) (move : Move) : Option (State τ ι × List (Event τ)) :=
  if (s.task t).allows move then
    (s.threads.step t move).map fun threads =>
      (setTask { s with threads } t ((s.task t).after move),
        (s.task t).events t move (threads.place t))
  else none

def step (s : State τ ι) (t : τ) : Action ι → Option (State τ ι × List (Event τ))
  | .call call => (s.call t call).map (·, [])
  | .build => (s.build t).map (·, [])
  | .access now => (s.access t now).map (·, [])
  | .move move => s.move t move

def run (s : State τ ι) : List (τ × Action ι) → Option (State τ ι × List (Event τ))
  | [] => some (s, [])
  | (t, action) :: rest =>
    (s.step t action).bind fun (next, seen) =>
      (next.run rest).map fun (last, more) => (last, seen ++ more)

/-- Asks an index in memory for a page of identifiers. -/
def search (s : State τ ι) (number : Nat) (text : String) (limit : Int) (offset : Option Int) :
    Option (Except Index.QueryError (Option (List ι))) :=
  s.objects[number]?.map fun o => o.index.search text limit offset

/-- Asks an index in memory for signatures that start with a text. -/
def suggest (s : State τ ι) (number : Nat) (text : String) (limit : Int) :
    Option (Except Index.QueryError (Option (List String))) :=
  s.objects[number]?.map fun o => o.index.suggest text limit

end State
end SignatureSearch.Signature.SharedCache
