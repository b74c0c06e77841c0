/-
# `ReadWriteLock.Schedule` — tasks that share a lock

Tasks run one at a time.  A task that cannot enter is parked at the end of a
queue.  A notification moves all parked tasks, in order, behind those that can
run.  After a new task has finished or was parked, the tasks that can run take
their turns from the front: each tests the lock anew, and is parked again or
finishes.
-/
import SignatureSearch.ReadWriteLock

namespace SignatureSearch.ReadWriteLock

inductive Action where
  | acquire (mode : Mode)
  | release (mode : Mode)
  /-- Acquires the lock, runs a body that may fail, and releases the lock in either case. -/
  | hold (mode : Mode) (fails : Bool)
deriving DecidableEq, Repr

/-- A task and the label that tells it apart. -/
structure Task where
  label : String
  action : Action
deriving DecidableEq, Repr

inductive Event where
  | waits
  | acquired
  | released
  | bodyFailed
  | unbalanced (error : Unbalanced)
deriving DecidableEq, Repr

abbrev Seen := String × Event

/-- What an attempt to run a task leads to. -/
inductive Turn where
  /-- The task has to wait. -/
  | parks
  /-- The task is done, and perhaps notifies those who wait. -/
  | ends (notifies : Bool) (lock : ReadWriteLock) (events : List Event)
deriving DecidableEq, Repr

/-- Releases the lock; `done` is seen if that goes well. -/
def turnOfRelease (lock : ReadWriteLock) (mode : Mode) (before : List Event) (done : Event) :
    Turn :=
  match lock.release mode with
  | .ok (lock, notifies) => .ends notifies lock (before ++ [done])
  | .error e => .ends false lock (before ++ [.unbalanced e])

/-- Runs a task that has announced itself. -/
def turn (lock : ReadWriteLock) : Action → Turn
  | .acquire mode =>
    if lock.isOpen mode then .ends false (lock.enter mode) [.acquired] else .parks
  | .release mode => turnOfRelease lock mode [] .released
  | .hold mode fails =>
    if lock.isOpen mode then
      turnOfRelease (lock.enter mode) mode [.acquired] (if fails then .bodyFailed else .released)
    else .parks

/-- What a task does to the lock before its first turn. -/
def Action.announce (lock : ReadWriteLock) : Action → ReadWriteLock
  | .acquire mode => lock.announce mode
  | .release _ => lock
  | .hold mode _ => lock.announce mode

/-- A lock and the tasks that are not done: those parked, and those that can run. -/
structure Schedule where
  lock : ReadWriteLock := {}
  parked : List Task := []
  runnable : List Task := []
deriving DecidableEq, Repr

namespace Schedule

/-- Gives the tasks that can run their turns until none is left, and returns what is seen.  A task
that notifies lets those that are parked run after the others. -/
def drainFrom (lock : ReadWriteLock) (parked : List Task) : List Task → Schedule × List Seen
  | [] => (⟨lock, parked, []⟩, [])
  | t :: rest =>
    match turn lock t.action with
    | .parks =>
      let (s, seen) := drainFrom lock (parked ++ [t]) rest
      (s, (t.label, .waits) :: seen)
    | .ends notifies after events =>
      let (s, seen) :=
        if notifies then drainFrom after [] (rest ++ parked) else drainFrom after parked rest
      (s, events.map (t.label, ·) ++ seen)
termination_by runnable => (parked.length + runnable.length, runnable.length)
decreasing_by
  · rw [List.length_append, List.length_cons, List.length_cons, List.length_nil,
      show parked.length + (0 + 1) + rest.length = parked.length + (rest.length + 1) by omega]
    exact Prod.Lex.right _ (by omega)
  · apply Prod.Lex.left
    rw [List.length_append, List.length_cons, List.length_nil]
    omega
  · apply Prod.Lex.left
    rw [List.length_cons]
    omega

/-- Lets all tasks run that can, until none is left. -/
def drain (s : Schedule) : Schedule × List Seen :=
  drainFrom s.lock s.parked s.runnable

/-- Starts a task and lets all tasks run that can. -/
def start (s : Schedule) (t : Task) : Schedule × List Seen :=
  drain { s with lock := t.action.announce s.lock, runnable := [t] }

/-- Starts tasks one after another; for each, the schedule after it and what was seen. -/
def run (s : Schedule) : List Task → List (Schedule × List Seen)
  | [] => []
  | t :: rest =>
    let after := s.start t
    after :: after.1.run rest

end Schedule
end SignatureSearch.ReadWriteLock
