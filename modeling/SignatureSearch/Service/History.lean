/-
# `Service.History` — what happens to a running service

The service lives through events: its first index is loaded, requests come in,
and the store is changed by others.  Loading and building the index anew read
the store in bulk, and the stream may break off at any document.  The history
keeps of every bulk load that succeeded what it returned.
-/
import SignatureSearch.Service.Api

namespace SignatureSearch.Service

open Store (Failure Interruption)

/-- Something that happens to the service. -/
inductive Event where
  /-- The first index is loaded. -/
  | load (now : String) (stop : Option Interruption)
  | request (clock : Clock) (r : Request) (stop : Option Interruption)
  /-- Others change the store, or whether it can be reached. -/
  | change (client : Store.Client) (missingKey : Option String)

/-- What is seen of an event. -/
inductive Outcome where
  | loaded (result : Except Failure Bool)
  | replied (reply : Reply)
  | changed

def Event.occur (settings : Settings) : Event → StateM Service Outcome
  | .load now stop => return .loaded (← Service.load settings now stop)
  | .request clock r stop => return .replied (← respond settings clock r stop)
  | .change client missingKey => do
    modify fun s => { s with client, missingKey }
    return .changed

def Request.reaches (r : Request) (endpoint : Endpoint) : Bool :=
  Endpoint.ofPath? r.path = some endpoint && endpoint.methods.contains r.method

/-! ## Bulk loads -/

/-- The bulk load that is part of an event: at what time, and how its stream breaks off. -/
def Event.bulk? : Event → Option (String × Option Interruption)
  | .load now stop => some (now, stop)
  | .request clock r stop => if r.reaches .update then some (clock.now, stop) else none
  | .change _ _ => none

/-- Whether an event was seen to go well. -/
def Outcome.isGood : Outcome → Bool
  | .loaded (.ok found) => found
  | .loaded (.error _) => false
  | .replied reply => reply.status = 200
  | .changed => true

/-- A bulk load that succeeded: at what time, and the pairs that it returned. -/
structure Success where
  now : String
  returned : Except Failure (List (Json × Int))

/-- The bulk load of an event, if it was seen to succeed. -/
def Event.success? (settings : Settings) (s : Service) (e : Event) : Option Success :=
  e.bulk?.bind fun (now, stop) =>
    if ((e.occur settings).run s).1.isGood then
      some ⟨now, ((database (Database.allSignatures settings stop)).run s).1⟩
    else none

/-- The service after some events, and the bulk loads that succeeded on the way. -/
def follow (settings : Settings) : List Event → Service → Service × List Success
  | [], s => (s, [])
  | e :: rest, s =>
    let (last, later) := follow settings rest ((e.occur settings).run s).2
    (last, (e.success? settings s).toList ++ later)

end SignatureSearch.Service
