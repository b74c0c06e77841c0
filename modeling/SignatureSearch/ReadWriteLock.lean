/-
# `ReadWriteLock` — many readers or one writer

The state of a lock and its atomic steps.  A reader enters unless a writer is
inside or waits, so that readers cannot keep a writer out for ever.  A writer
first counts itself as waiting, and enters when nobody is inside.  A step that
may let others in says that it notifies them: every release of a writer does,
and the release of the last reader.
-/
namespace SignatureSearch

structure ReadWriteLock where
  readers : Nat := 0
  writerActive : Bool := false
  writersWaiting : Nat := 0
deriving DecidableEq, Repr

namespace ReadWriteLock

/-- The two ways to hold a lock. -/
inductive Mode where
  | read
  | write
deriving DecidableEq, Repr

def isOpen (lock : ReadWriteLock) : Mode → Bool
  | .read => !lock.writerActive && lock.writersWaiting == 0
  | .write => !lock.writerActive && lock.readers == 0

/-- What happens before the first attempt to enter: a writer counts itself as waiting. -/
def announce (lock : ReadWriteLock) : Mode → ReadWriteLock
  | .read => lock
  | .write => { lock with writersWaiting := lock.writersWaiting + 1 }

def enter (lock : ReadWriteLock) : Mode → ReadWriteLock
  | .read => { lock with readers := lock.readers + 1 }
  | .write => { lock with writerActive := true, writersWaiting := lock.writersWaiting - 1 }

/-- The state after a wait was given up: a writer no longer counts as waiting. -/
def withdraw (lock : ReadWriteLock) : Mode → ReadWriteLock
  | .read => lock
  | .write => { lock with writersWaiting := lock.writersWaiting - 1 }

/-- A release without an acquisition. -/
structure Unbalanced where
  mode : Mode
deriving DecidableEq, Repr

def Unbalanced.message : Unbalanced → String
  | ⟨.read⟩ => "release_read called without a matching acquire_read"
  | ⟨.write⟩ => "release_write called without a matching acquire_write"

/-- The state after a release, and whether those who wait are notified. -/
def release (lock : ReadWriteLock) : Mode → Except Unbalanced (ReadWriteLock × Bool)
  | .read =>
    if lock.readers = 0 then .error ⟨.read⟩
    else .ok ({ lock with readers := lock.readers - 1 }, lock.readers == 1)
  | .write =>
    if lock.writerActive then .ok ({ lock with writerActive := false }, true)
    else .error ⟨.write⟩

end ReadWriteLock
end SignatureSearch
