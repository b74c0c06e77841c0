/-
# `Proofs.Store.Undisturbed` — actions to which nothing is refused

Without planned faults no call is refused, and none is planned by a call.  So an
action `Succeeds` if what it does with the store makes sense there: a query and
a commit always do, and a transaction does if its body gives a result.
-/
import SignatureSearch.Proofs.Store.Calls

namespace SignatureSearch.Store

variable {α β : Type} {client : Client}

/-! ## Faults that are not there -/

/-- No fault comes up. -/
def Quiet (before after : Client) : Prop :=
  before.faults = [] → after.faults = []

theorem Quiet.refl (client : Client) : Quiet client client := id

theorem Quiet.trans {a b c : Client} (hab : Quiet a b) (hbc : Quiet b c) : Quiet a c :=
  hbc ∘ hab

theorem quiet_note (client : Client) (c : Call) : Quiet client (client.note c) := by
  intro h
  rw [Client.note, h]
  rfl

theorem quiet_call (c : Call) : Keeps Quiet (call c) := by
  intro client
  rw [perform_call]
  cases fate c.operation client.faults 0 <;> exact quiet_note client c

theorem quiet_modifyStore (f : Store → Store) : Keeps Quiet (modifyStore f) :=
  fun _ => id

theorem quiet_setDocument (key : DocumentKey) (fields : Fields) :
    Keeps Quiet (setDocument key fields) :=
  keeps_bind .trans (quiet_call (.set key)) fun _ => quiet_modifyStore _

theorem quiet_updateDocument (key : DocumentKey) (updates : Fields) :
    Keeps Quiet (updateDocument key updates) := by
  refine keeps_bind .trans (quiet_call (.update key)) fun _ => ?_
  refine keeps_bind .trans (fun client => .refl client) fun client => ?_
  cases client.store.get? key with
  | none => exact keeps_throw .refl _
  | some fields => exact quiet_modifyStore _

/-! ## Actions that succeed -/

/-- An action gives a result, and no fault comes up. -/
def Succeeds (action : Action α) (client : Client) : Prop :=
  ∃ a after, perform action client = (.ok a, after) ∧ after.faults = []

theorem succeeds_pure (a : α) (h : client.faults = []) : Succeeds (pure a) client :=
  ⟨a, client, rfl, h⟩

theorem succeeds_call (c : Call) (h : client.faults = []) : Succeeds (call c) client := by
  refine ⟨(), client.note c, ?_, quiet_note client c h⟩
  rw [perform_call, h, fate_nil]

theorem succeeds_modifyStore (f : Store → Store) (h : client.faults = []) :
    Succeeds (modifyStore f) client :=
  ⟨(), { client with store := f client.store }, rfl, h⟩

theorem Succeeds.bind {action : Action α} {next : α → Action β} (h : Succeeds action client)
    (hnext : ∀ a mid, perform action client = (.ok a, mid) → mid.faults = [] →
      Succeeds (next a) mid) : Succeeds (action >>= next) client := by
  obtain ⟨a, mid, hfirst, hmid⟩ := h
  obtain ⟨b, after, hrest, hafter⟩ := hnext a mid hfirst hmid
  exact ⟨b, after, perform_bind_eq_ok.mpr ⟨a, mid, hfirst, hrest⟩, hafter⟩

theorem succeeds_tryCatch {action : Action α} (h : Succeeds action client)
    (handle : Failure → Action α) : Succeeds (tryCatch action handle) client := by
  obtain ⟨a, after, hfirst, hafter⟩ := h
  refine ⟨a, after, ?_, hafter⟩
  rw [perform_tryCatch, hfirst]

theorem succeeds_orElse {action : Action α} (hquiet : Keeps Quiet action) (fallback : α)
    (h : client.faults = []) : Succeeds (orElse action fallback) client :=
  ⟨_, _, perform_orElse action fallback client, hquiet client h⟩

theorem succeeds_queryWith (collection field : String) (value : Json) (h : client.faults = []) :
    Succeeds (queryWith collection field value) client :=
  (succeeds_call (.stream collection) h).bind fun _ mid _ hmid =>
    ⟨_, mid, rfl, hmid⟩

theorem succeeds_commitBatch (writes : List Write) (h : client.faults = []) :
    Succeeds (commitBatch writes) client :=
  (succeeds_call _ h).bind fun _ _ _ hmid => succeeds_modifyStore _ hmid

/-! ## Transactions -/

theorem succeeds_transact {key : DocumentKey} {body : Option Fields → Except Failure (α × Fields)}
    {a : α} {fields : Fields} (h : client.faults = [])
    (hbody : body (client.store.get? key) = .ok (a, fields)) :
    Succeeds (transact key body) client := by
  have hbegin := quiet_note client .begin h
  have hget := quiet_note _ (.get key) hbegin
  have hcommit := quiet_note _ .commit hget
  have hattempt : perform (attempt key body) client = (.ok (some a),
      { ((client.note .begin).note (.get key)).note .commit with
        store := client.store.put key fields }) := by
    rw [attempt, perform_call_bind, h, fate_nil]
    dsimp only
    rw [perform_bind, perform_readDocument, hbegin, fate_nil]
    dsimp only
    rw [perform_bind, perform_liftM, show (client.note .begin).store = client.store from rfl, hbody]
    dsimp only
    rw [perform_tryCatch, perform_call_bind, hget, fate_nil]
    rfl
  refine succeeds_tryCatch ?_ _
  refine Succeeds.bind ⟨_, _, hattempt, hcommit⟩ fun found mid hfound hmid => ?_
  obtain ⟨hresult, rfl⟩ := Prod.mk.inj (hattempt.symm.trans hfound)
  obtain rfl := Except.ok.inj hresult
  exact succeeds_pure a hmid

end SignatureSearch.Store
