/-
# `ReadWriteLock.Threads` — threads that share a lock

Any number of threads go through sections of one lock, in any order.  A thread
holds the condition variable from where it takes it to where it waits or gives
it back, and what it does in between is one move:

    arrive mode    from outside a section to its inside, or to a wait
    wake           from a wait to the inside, or to another wait
    abort          from a wait to the outside, when an exception ends the wait
    leave          from inside a section to the outside, whether or not what was
                   done there failed

A thread may wake without having been notified.  For the lock, a thread that
enters a section inside of another one is two threads.
-/
import SignatureSearch.ReadWriteLock

namespace SignatureSearch.ReadWriteLock

inductive Place where
  | outside
  /-- In a wait, with whether it was notified since this wait began. -/
  | waits (mode : Mode) (notified : Bool)
  | inside (mode : Mode)
  /-- Stopped by a release that had no acquisition. -/
  | failed (error : Unbalanced)
deriving DecidableEq, Repr

/-- The place of a thread after all threads were notified. -/
def Place.notify : Place → Place
  | .waits mode _ => .waits mode true
  | place => place

/-- What a thread does in one go. -/
inductive Move where
  | arrive (mode : Mode)
  | wake
  | abort
  | leave
deriving DecidableEq, Repr

structure Threads (τ : Type) where
  lock : ReadWriteLock := {}
  place : τ → Place := fun _ => .outside

namespace Threads

variable {τ : Type} [DecidableEq τ]

/-- The places after one thread went to another one. -/
def put (place : τ → Place) (t : τ) (p : Place) : τ → Place :=
  fun t' => if t' = t then p else place t'

/-- A thread asks to enter: it is among those that wait, and is about to test the lock. -/
def ask (s : Threads τ) (t : τ) (mode : Mode) : Threads τ :=
  ⟨s.lock.announce mode, put s.place t (.waits mode true)⟩

/-- A thread tests the lock, and enters or waits. -/
def attempt (s : Threads τ) (t : τ) (mode : Mode) : Threads τ :=
  if s.lock.isOpen mode then ⟨s.lock.enter mode, put s.place t (.inside mode)⟩
  else ⟨s.lock, put s.place t (.waits mode false)⟩

/-- A thread releases the lock, and perhaps notifies those that wait. -/
def leave (s : Threads τ) (t : τ) (mode : Mode) : Threads τ :=
  match s.lock.release mode with
  | .ok (lock, true) => ⟨lock, put (fun t => (s.place t).notify) t .outside⟩
  | .ok (lock, false) => ⟨lock, put s.place t .outside⟩
  | .error e => ⟨s.lock, put s.place t (.failed e)⟩

def step (s : Threads τ) (t : τ) (move : Move) : Option (Threads τ) :=
  match move, s.place t with
  | .arrive mode, .outside => some ((s.ask t mode).attempt t mode)
  | .wake, .waits mode _ => some (s.attempt t mode)
  | .abort, .waits mode _ => some ⟨s.lock.withdraw mode, put s.place t .outside⟩
  | .leave, .inside mode => some (s.leave t mode)
  | _, _ => none

def run (s : Threads τ) : List (τ × Move) → Option (Threads τ)
  | [] => some s
  | (t, move) :: rest => (s.step t move).bind (run · rest)

end Threads
end SignatureSearch.ReadWriteLock
