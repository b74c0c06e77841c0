/-
# `Proofs.Store.Calls` — what actions on a store do, refused or not

`perform` runs an action: its result, and the client afterwards.  The plan of
faults alone decides which calls are refused.  Calls of one operation are
counted apart from all others, and `fate` says what becomes of each of them:

    fate op faults n    the refusal of the n-th call of `op` from now on, if it
                        is refused; the first one is number 0

An action that `Spares` an operation makes no call of it, and then the fates of
those calls stay what they were (`fate_strike_of_ne`).  A transaction leaves the
store alone, or has put what its body said (`perform_transact`).
-/
import SignatureSearch.Proofs.Store.Contents
import SignatureSearch.Store.Client

namespace SignatureSearch.Store

variable {α β : Type}

/-! ## Running actions -/

/-- The result of an action, and the client afterwards. -/
def perform (action : Action α) (client : Client) : Except Failure α × Client :=
  action.run.run client

theorem perform_get (client : Client) : perform get client = (.ok client, client) := rfl

theorem perform_liftM (result : Except Failure α) (client : Client) :
    perform (liftM result) client = (result, client) := by
  cases result <;> rfl

theorem perform_bind (action : Action α) (next : α → Action β) (client : Client) :
    perform (action >>= next) client =
      match perform action client with
      | (.ok a, client) => perform (next a) client
      | (.error failure, client) => (.error failure, client) := by
  simp only [perform, ExceptT.run_bind, StateT.run_bind]
  rcases action.run.run client with ⟨result, after⟩
  cases result <;> rfl

theorem perform_bind_eq_ok {action : Action α} {next : α → Action β} {client after : Client}
    {b : β} : perform (action >>= next) client = (.ok b, after) ↔
      ∃ a mid, perform action client = (.ok a, mid) ∧ perform (next a) mid = (.ok b, after) := by
  rw [perform_bind]
  obtain ⟨_ | a, mid⟩ := perform action client
  · simp
  · simp [and_assoc]

/-- An action in two parts fails if the first one does, or else the second one. -/
theorem perform_bind_eq_error {action : Action α} {next : α → Action β} {client after : Client}
    {failure : Failure} : perform (action >>= next) client = (.error failure, after) ↔
      perform action client = (.error failure, after) ∨
      ∃ a mid, perform action client = (.ok a, mid) ∧
        perform (next a) mid = (.error failure, after) := by
  rw [perform_bind]
  obtain ⟨_ | a, mid⟩ := perform action client
  · simp
  · simp [and_assoc]

theorem perform_tryCatch (action : Action α) (handle : Failure → Action α) (client : Client) :
    perform (tryCatch action handle) client =
      match perform action client with
      | (.ok a, client) => (.ok a, client)
      | (.error failure, client) => perform (handle failure) client := by
  simp only [perform, ExceptT.run_tryCatch, StateT.run_bind]
  rcases action.run.run client with ⟨result, after⟩
  cases result <;> rfl

/-- An action that must not fail gives a result, and does what it does. -/
theorem perform_orElse (action : Action α) (fallback : α) (client : Client) :
    perform (orElse action fallback) client =
      (.ok ((perform action client).1.toOption.getD fallback), (perform action client).2) := by
  rw [orElse, perform_tryCatch]
  rcases perform action client with ⟨failure | a, after⟩ <;> rfl

theorem exists_orElse (action : Action α) (fallback : α) (client : Client) :
    ∃ a, perform (orElse action fallback) client =
      (.ok a, (perform (orElse action fallback) client).2) := by
  rw [perform_orElse]
  exact ⟨_, rfl⟩

/-- What every step of an action keeps, the action keeps. -/
def Keeps (R : Client → Client → Prop) (action : Action α) : Prop :=
  ∀ client, R client (perform action client).2

section Keeps

variable {R : Client → Client → Prop}

theorem keeps_pure (hrefl : ∀ client, R client client) (a : α) : Keeps R (pure a) :=
  hrefl

theorem keeps_throw (hrefl : ∀ client, R client client) (failure : Failure) :
    Keeps R (throw failure : Action α) :=
  hrefl

theorem keeps_liftM (hrefl : ∀ client, R client client) (result : Except Failure α) :
    Keeps R (liftM result : Action α) := by
  intro client
  rw [perform_liftM]
  exact hrefl client

theorem keeps_bind (htrans : ∀ {a b c}, R a b → R b c → R a c) {action : Action α}
    {next : α → Action β} (haction : Keeps R action) (hnext : ∀ a, Keeps R (next a)) :
    Keeps R (action >>= next) := by
  intro client
  have hfirst := haction client
  rw [perform_bind]
  generalize perform action client = outcome at hfirst
  obtain ⟨_ | a, after⟩ := outcome
  · exact hfirst
  · exact htrans hfirst (hnext a after)

theorem keeps_tryCatch (htrans : ∀ {a b c}, R a b → R b c → R a c) {action : Action α}
    {handle : Failure → Action α} (haction : Keeps R action)
    (hhandle : ∀ failure, Keeps R (handle failure)) :
    Keeps R (tryCatch action handle) := by
  intro client
  have hfirst := haction client
  rw [perform_tryCatch]
  generalize perform action client = outcome at hfirst
  obtain ⟨failure | _, after⟩ := outcome
  · exact htrans hfirst (hhandle failure after)
  · exact hfirst

end Keeps

/-! ## Refusals -/

theorem strike_cons_of_ne {op : Operation} {fault : Fault} (h : fault.operation ≠ op)
    (rest : List Fault) :
    strike op (fault :: rest) = ((strike op rest).1, fault :: (strike op rest).2) := by
  simp [strike, h]

theorem strike_cons_of_ready {fault : Fault} (hskip : fault.skip = 0) (htimes : 0 < fault.times)
    (rest : List Fault) :
    strike fault.operation (fault :: rest) =
      (some (.refused fault.kind fault.message), { fault with times := fault.times - 1 } :: rest) := by
  simp [strike, hskip, htimes]

theorem strike_cons_of_not_ready {fault : Fault} (h : ¬ (fault.skip = 0 ∧ 0 < fault.times))
    (rest : List Fault) :
    strike fault.operation (fault :: rest) =
      ((strike fault.operation rest).1,
        { fault with skip := fault.skip - 1 } :: (strike fault.operation rest).2) := by
  simp [strike, h]

theorem strike_comm {op op' : Operation} (h : op' ≠ op) (faults : List Fault) :
    strike op (strike op' faults).2 =
      ((strike op faults).1, (strike op' (strike op faults).2).2) := by
  induction faults with
  | nil => rfl
  | cons fault rest ih =>
      by_cases hop : fault.operation = op
      · subst hop
        rw [strike_cons_of_ne h.symm]
        by_cases hready : fault.skip = 0 ∧ 0 < fault.times
        · rw [strike_cons_of_ready hready.1 hready.2, strike_cons_of_ready hready.1 hready.2,
            strike_cons_of_ne (by exact h.symm)]
        · rw [strike_cons_of_not_ready hready, strike_cons_of_not_ready hready,
            strike_cons_of_ne (by exact h.symm), ih]
      · rw [strike_cons_of_ne hop]
        by_cases hop' : fault.operation = op'
        · subst hop'
          by_cases hready : fault.skip = 0 ∧ 0 < fault.times
          · rw [strike_cons_of_ready hready.1 hready.2, strike_cons_of_ready hready.1 hready.2,
              strike_cons_of_ne (by exact hop)]
          · rw [strike_cons_of_not_ready hready, strike_cons_of_not_ready hready,
              strike_cons_of_ne (by exact hop), ih]
        · rw [strike_cons_of_ne hop', strike_cons_of_ne hop', strike_cons_of_ne hop, ih]

/-- The refusal of the n-th call of an operation from now on, if it is refused. -/
def fate (op : Operation) (faults : List Fault) : Nat → Option Failure
  | 0 => (strike op faults).1
  | n + 1 => fate op (strike op faults).2 n

theorem fate_nil (op : Operation) (n : Nat) : fate op [] n = none := by
  induction n with
  | zero => rfl
  | succ n ih => exact ih

theorem fate_strike_of_ne {op op' : Operation} (h : op' ≠ op) (faults : List Fault) (n : Nat) :
    fate op (strike op' faults).2 n = fate op faults n := by
  induction n generalizing faults with
  | zero => rw [fate, strike_comm h, fate]
  | succ n ih => rw [fate, strike_comm h, ih, fate]

/-- The client when a call has been recorded and has met the faults. -/
def Client.note (client : Client) (c : Call) : Client where
  store := client.store
  faults := (strike c.operation client.faults).2
  calls := c :: client.calls

theorem perform_call (c : Call) (client : Client) :
    perform (call c) client =
      match fate c.operation client.faults 0 with
      | some failure => (.error failure, client.note c)
      | none => (.ok (), client.note c) := by
  rw [fate, call, perform_bind, perform_get]
  show perform (set (client.note c) >>= _) client = _
  rw [perform_bind]
  show perform (match (strike c.operation client.faults).1 with
    | some failure => throw failure
    | none => pure ()) (client.note c) = _
  cases (strike c.operation client.faults).1 <;> rfl

theorem perform_call_bind (c : Call) (next : Unit → Action α) (client : Client) :
    perform (call c >>= next) client =
      match fate c.operation client.faults 0 with
      | some failure => (.error failure, client.note c)
      | none => perform (next ()) (client.note c) := by
  rw [perform_bind, perform_call]
  cases fate c.operation client.faults 0 <;> rfl

theorem perform_call_bind_of_none {c : Call} {client : Client} (next : Unit → Action α)
    (h : fate c.operation client.faults 0 = none) :
    perform (call c >>= next) client = perform (next ()) (client.note c) := by
  rw [perform_call_bind, h]

/-- Makes a call and then looks at the store. -/
def read (c : Call) (look : Store → α) : Action α := do
  call c
  return look (← get).store

theorem perform_read (c : Call) (look : Store → α) (client : Client) :
    perform (read c look) client =
      match fate c.operation client.faults 0 with
      | some failure => (.error failure, client.note c)
      | none => (.ok (look client.store), client.note c) := by
  rw [read, perform_call_bind]
  rfl

theorem read_ok {c : Call} {look : Store → α} {client after : Client} {a : α}
    (h : perform (read c look) client = (.ok a, after)) :
    a = look client.store ∧ after = client.note c := by
  rw [perform_read] at h
  cases hfate : fate c.operation client.faults 0 with
  | some failure => simp [hfate] at h
  | none =>
      rw [hfate] at h
      obtain ⟨ha, hafter⟩ := Prod.mk.inj h
      exact ⟨(Except.ok.inj ha).symm, hafter.symm⟩

theorem read_error {c : Call} {look : Store → α} {client after : Client} {failure : Failure}
    (h : perform (read c look) client = (.error failure, after)) : after = client.note c := by
  rw [perform_read] at h
  cases hfate : fate c.operation client.faults 0 with
  | some failure' =>
      rw [hfate] at h
      exact (Prod.mk.inj h).2.symm
  | none => simp [hfate] at h

/-! ## Actions that spare an operation -/

/-- Between two clients there was no call of an operation. -/
structure Spares (op : Operation) (before after : Client) : Prop where
  fate_eq : ∀ n, fate op after.faults n = fate op before.faults n
  calls_eq : ∃ new, after.calls = new ++ before.calls ∧ ∀ c ∈ new, c.operation ≠ op

namespace Spares

variable {op : Operation}

theorem refl (client : Client) : Spares op client client :=
  ⟨fun _ => rfl, [], rfl, nofun⟩

theorem trans {a b c : Client} (hab : Spares op a b) (hbc : Spares op b c) : Spares op a c := by
  obtain ⟨new, hnew, hop⟩ := hab.calls_eq
  obtain ⟨newer, hnewer, hop'⟩ := hbc.calls_eq
  refine ⟨fun n => (hbc.fate_eq n).trans (hab.fate_eq n), newer ++ new, ?_, ?_⟩
  · rw [hnewer, hnew, List.append_assoc]
  · intro c hc
    exact (List.mem_append.mp hc).elim (hop' c) (hop c)

end Spares

section Spares

variable {op : Operation}

theorem spares_modifyStore (f : Store → Store) : Keeps (Spares op) (modifyStore f) :=
  fun _ => ⟨fun _ => rfl, [], rfl, nofun⟩

theorem spares_note {c : Call} (h : c.operation ≠ op) (client : Client) :
    Spares op client (client.note c) :=
  ⟨fate_strike_of_ne h client.faults, [c], rfl, by simpa using h⟩

theorem spares_call {c : Call} (h : c.operation ≠ op) : Keeps (Spares op) (call c) := by
  intro client
  have hnote := spares_note h client
  rw [perform_call]
  cases fate c.operation client.faults 0 <;> exact hnote

theorem spares_readDocument (h : .get ≠ op) (key : DocumentKey) :
    Keeps (Spares op) (readDocument key) := by
  refine keeps_bind .trans (spares_call (c := .get key) h) fun _ => ?_
  intro client
  exact .refl client

end Spares

/-! ## Transactions -/

section Transactions

variable {key : DocumentKey} {body : Option Fields → Except Failure (α × Fields)}

/-- An operation that transactions do not use. -/
def IsOutside (op : Operation) : Prop :=
  .begin ≠ op ∧ .get ≠ op ∧ .commit ≠ op ∧ .rollback ≠ op

theorem spares_attempt {op : Operation} (h : IsOutside op) :
    Keeps (Spares op) (attempt key body) := by
  obtain ⟨hbegin, hget, hcommit, -⟩ := h
  refine keeps_bind .trans (spares_call (c := .begin) hbegin) fun _ => ?_
  refine keeps_bind .trans (spares_readDocument hget key) fun found => ?_
  refine keeps_bind .trans (keeps_liftM .refl _) fun result => ?_
  refine keeps_tryCatch .trans ?_ fun failure => ?_
  · refine keeps_bind .trans (spares_call (c := .commit) hcommit) fun _ => ?_
    exact keeps_bind .trans (spares_modifyStore _) fun _ => keeps_pure .refl _
  · split
    · exact keeps_pure .refl _
    · exact keeps_throw .refl _

theorem spares_transact {op : Operation} (h : IsOutside op) :
    Keeps (Spares op) (transact key body) := by
  have hattempts : ∀ n, Keeps (Spares op) (attempts key body n) := by
    intro n
    induction n with
    | zero => exact keeps_throw .refl _
    | succ n ih =>
        refine keeps_bind .trans (spares_attempt h) fun result => ?_
        cases result with
        | some a => exact keeps_pure .refl a
        | none => exact ih
  refine keeps_tryCatch .trans (hattempts maxAttempts) fun failure => ?_
  exact keeps_bind .trans (spares_call (c := .rollback) h.2.2.2) fun _ => keeps_throw .refl _

theorem perform_readDocument (client : Client) :
    perform (readDocument key) client =
      match fate .get client.faults 0 with
      | some failure => (.error failure, client.note (.get key))
      | none => (.ok (client.store.get? key), client.note (.get key)) :=
  perform_read (.get key) (·.get? key) client

/-- What an attempt has done if it gave a result, and that it did nothing if not. -/
theorem perform_attempt (client : Client) :
    match perform (attempt key body) client with
    | (.ok (some a), after) => ∃ fields, body (client.store.get? key) = .ok (a, fields) ∧
        after.store = client.store.put key fields
    | (_, after) => after.store = client.store := by
  rw [attempt, perform_call_bind]
  cases fate (Call.operation .begin) client.faults 0 with
  | some failure => rfl
  | none =>
      dsimp only
      rw [perform_bind, perform_readDocument]
      cases fate .get (client.note .begin).faults 0 with
      | some failure => rfl
      | none =>
          dsimp only
          rw [perform_bind, perform_liftM]
          cases hbody : body ((client.note .begin).store.get? key) with
          | error failure => rfl
          | ok result =>
              obtain ⟨a, fields⟩ := result
              dsimp only
              rw [perform_tryCatch, perform_call_bind]
              cases fate (Call.operation .commit) _ 0 with
              | some failure =>
                  -- Only an aborted commit gives a result, and that there was none.
                  cases failure with
                  | refused kind message => cases kind <;> rfl
                  | _ => rfl
              | none => exact ⟨fields, hbody, rfl⟩

/-- Attempts have put what the body said, or they have failed and done nothing. -/
theorem perform_attempts (n : Nat) (client : Client) :
    match perform (attempts key body n) client with
    | (.ok a, after) => ∃ fields, body (client.store.get? key) = .ok (a, fields) ∧
        after.store = client.store.put key fields
    | (.error _, after) => after.store = client.store := by
  induction n generalizing client with
  | zero => rfl
  | succ n ih =>
      have hfirst : match perform (attempt key body) client with
          | (.ok (some a), after) => ∃ fields, body (client.store.get? key) = .ok (a, fields) ∧
              after.store = client.store.put key fields
          | (_, after) => after.store = client.store := perform_attempt client
      rw [attempts, perform_bind]
      generalize perform (attempt key body) client = outcome at hfirst
      obtain ⟨_ | result, after⟩ := outcome
      · exact hfirst
      · cases result with
        | some a => exact hfirst
        | none =>
            have hstore : after.store = client.store := hfirst
            rw [← hstore]
            exact ih after

/-- A transaction has put what its body said, or it has failed and done nothing. -/
theorem perform_transact (client : Client) :
    match perform (transact key body) client with
    | (.ok a, after) => ∃ fields, body (client.store.get? key) = .ok (a, fields) ∧
        after.store = client.store.put key fields
    | (.error _, after) => after.store = client.store := by
  have htried := @perform_attempts _ key body maxAttempts client
  rw [transact, perform_tryCatch]
  generalize perform (attempts key body maxAttempts) client = outcome at htried
  obtain ⟨failure | a, after⟩ := outcome
  · dsimp only at htried ⊢
    rw [perform_call_bind]
    cases fate (Call.operation .rollback) after.faults 0 <;> exact htried
  · exact htried

end Transactions

/-! ## Reading -/

theorem bind_eq_ok {ε : Type} {first : Except ε α} {next : α → Except ε β} {b : β} :
    (first >>= next) = .ok b ↔ ∃ a, first = .ok a ∧ next a = .ok b := by
  cases first <;> simp [bind, Except.bind]

theorem forall₂_of_mapM_eq_ok {ε : Type} {f : α → Except ε β} {items : List α} {found : List β}
    (h : items.mapM f = .ok found) : List.Forall₂ (fun a b => f a = .ok b) items found := by
  induction items generalizing found with
  | nil =>
      obtain rfl := Except.ok.inj h
      exact .nil
  | cons a rest ih =>
      rw [List.mapM_cons] at h
      obtain ⟨b, hb, h⟩ := bind_eq_ok.mp h
      obtain ⟨bs, hbs, h⟩ := bind_eq_ok.mp h
      obtain rfl := Except.ok.inj h
      exact .cons hb (ih hbs)

theorem mapM_eq_ok_of_forall₂ {ε : Type} {f : α → Except ε β} {items : List α} {found : List β}
    (h : List.Forall₂ (fun a b => f a = .ok b) items found) : items.mapM f = .ok found := by
  induction h with
  | nil => rfl
  | cons hfirst _ ih =>
      rw [List.mapM_cons, hfirst, ih]
      rfl

theorem exists_mapM_eq_ok_iff {ε : Type} {f : α → Except ε β} {items : List α} :
    (∃ found, items.mapM f = .ok found) ↔ ∀ a ∈ items, ∃ b, f a = .ok b := by
  induction items with
  | nil => exact ⟨fun _ => nofun, fun _ => ⟨[], rfl⟩⟩
  | cons a rest ih =>
      rw [List.forall_mem_cons, ← ih]
      constructor
      · rintro ⟨found, h⟩
        rw [List.mapM_cons] at h
        obtain ⟨b, hb, h⟩ := bind_eq_ok.mp h
        obtain ⟨bs, hbs, -⟩ := bind_eq_ok.mp h
        exact ⟨⟨b, hb⟩, bs, hbs⟩
      · rintro ⟨⟨b, hb⟩, bs, hbs⟩
        refine ⟨b :: bs, ?_⟩
        rw [List.mapM_cons, hb, hbs]
        rfl

theorem exists_of_mem_mapM {ε : Type} {f : α → Except ε β} {items : List α} {found : List β}
    (h : items.mapM f = .ok found) {b : β} (hb : b ∈ found) : ∃ a ∈ items, f a = .ok b := by
  have hall := forall₂_of_mapM_eq_ok h
  clear h
  induction hall with
  | nil => exact absurd hb List.not_mem_nil
  | cons hfirst _ ih =>
      rcases List.mem_cons.mp hb with rfl | hb
      · exact ⟨_, List.mem_cons_self, hfirst⟩
      · obtain ⟨a, ha, hread⟩ := ih hb
        exact ⟨a, List.mem_cons_of_mem _ ha, hread⟩

theorem exists_mem_of_mapM {ε : Type} {f : α → Except ε β} {items : List α} {found : List β}
    (h : items.mapM f = .ok found) {a : α} (ha : a ∈ items) : ∃ b ∈ found, f a = .ok b := by
  have hall := forall₂_of_mapM_eq_ok h
  clear h
  induction hall with
  | nil => exact absurd ha List.not_mem_nil
  | cons hfirst _ ih =>
      rcases List.mem_cons.mp ha with rfl | ha
      · exact ⟨_, List.mem_cons_self, hfirst⟩
      · obtain ⟨b, hb, hread⟩ := ih ha
        exact ⟨b, List.mem_cons_of_mem _ hb, hread⟩

theorem exists_of_mapM_eq_error {ε : Type} {f : α → Except ε β} {items : List α} {e : ε}
    (h : items.mapM f = .error e) : ∃ a ∈ items, f a = .error e := by
  induction items with
  | nil => cases h
  | cons a rest ih =>
      rw [List.mapM_cons] at h
      cases ha : f a with
      | error e' =>
          rw [ha] at h
          obtain rfl := Except.error.inj h
          exact ⟨a, List.mem_cons_self, ha⟩
      | ok b =>
          rw [ha] at h
          cases hrest : rest.mapM f with
          | error e' =>
              rw [hrest] at h
              obtain rfl := Except.error.inj h
              obtain ⟨a', ha', herror⟩ := ih hrest
              exact ⟨a', List.mem_cons_of_mem _ ha', herror⟩
          | ok bs =>
              rw [hrest] at h
              cases h

/-- What a client becomes by calls that only read. -/
structure Later (before after : Client) : Prop where
  store_eq : after.store = before.store
  /-- What may be refused from now on could be refused before. -/
  fate_eq : ∀ op n, ∃ m, fate op after.faults n = fate op before.faults m

theorem Later.refl (client : Client) : Later client client :=
  ⟨rfl, fun _ n => ⟨n, rfl⟩⟩

theorem Later.trans {a b c : Client} (hab : Later a b) (hbc : Later b c) : Later a c := by
  refine ⟨hbc.store_eq.trans hab.store_eq, fun op n => ?_⟩
  obtain ⟨m, hm⟩ := hbc.fate_eq op n
  obtain ⟨k, hk⟩ := hab.fate_eq op m
  exact ⟨k, hm.trans hk⟩

theorem later_note (client : Client) (c : Call) : Later client (client.note c) := by
  refine ⟨rfl, fun op n => ?_⟩
  by_cases h : c.operation = op
  · subst h
    exact ⟨n + 1, rfl⟩
  · exact ⟨n, fate_strike_of_ne h client.faults n⟩

theorem later_call (c : Call) : Keeps Later (call c) := by
  intro client
  rw [perform_call]
  cases fate c.operation client.faults 0 <;> exact later_note client c

theorem later_read (c : Call) (look : Store → α) : Keeps Later (read c look) :=
  keeps_bind .trans (later_call c) fun _ client => .refl client

/-! ## Writes of single documents -/

theorem perform_setDocument {client : Client} {key : DocumentKey} (fields : Fields)
    (h : fate .set client.faults 0 = none) :
    perform (setDocument key fields) client =
      (.ok (), { client.note (.set key) with store := client.store.put key fields }) := by
  rw [setDocument, perform_call_bind_of_none (c := .set key) _ h]
  rfl

theorem perform_updateDocument {client : Client} {key : DocumentKey} {fields : Fields}
    (updates : Fields) (h : fate .update client.faults 0 = none)
    (hfields : client.store.get? key = some fields) :
    perform (updateDocument key updates) client =
      (.ok (), { client.note (.update key) with
        store := client.store.put key
          (updates.foldl (fun fields (k, v) => Json.setField fields k v) fields) }) := by
  rw [updateDocument, perform_call_bind_of_none (c := .update key) _ h, perform_bind, perform_get]
  dsimp only
  rw [show (client.note (.update key)).store.get? key = some fields from hfields]
  rfl

/-! ## Documents that stay -/

/-- The document of a key is what it was. -/
def Fixes (key : DocumentKey) (before after : Client) : Prop :=
  after.store.get? key = before.store.get? key

section Fixes

variable {key : DocumentKey}

theorem Fixes.refl (client : Client) : Fixes key client client := rfl

theorem Fixes.trans {a b c : Client} (hab : Fixes key a b) (hbc : Fixes key b c) :
    Fixes key a c :=
  Eq.trans hbc hab

theorem fixes_call (c : Call) : Keeps (Fixes key) (call c) := by
  intro client
  rw [perform_call]
  cases fate c.operation client.faults 0 <;> rfl

theorem fixes_commitBatch {writes : List Write} (h : key ∉ writes.map Write.key) :
    Keeps (Fixes key) (commitBatch writes) := by
  refine keeps_bind .trans (fixes_call _) fun _ client => ?_
  exact get?_commit_of_notMem h

theorem fixes_transact {key' : DocumentKey} (h : key ≠ key')
    (body : Option Fields → Except Failure (α × Fields)) :
    Keeps (Fixes key) (transact key' body) := by
  intro client
  have hdone := @perform_transact _ key' body client
  generalize perform (transact key' body) client = outcome at hdone
  obtain ⟨failure | a, after⟩ := outcome
  · exact congrArg (·.get? key) hdone
  · obtain ⟨fields, -, hstore⟩ := hdone
    show after.store.get? key = client.store.get? key
    rw [hstore, client.store.get?_put_of_ne h]

end Fixes

/-! ## Writes within a collection -/

/-- Only documents of one collection are different. -/
def Within (collection : String) (before after : Client) : Prop :=
  ∀ key, key.collection ≠ collection → after.store.get? key = before.store.get? key

section Within

variable {collection : String}

theorem Within.refl (client : Client) : Within collection client client :=
  fun _ _ => rfl

theorem Within.trans {a b c : Client} (hab : Within collection a b) (hbc : Within collection b c) :
    Within collection a c :=
  fun key hkey => (hbc key hkey).trans (hab key hkey)

theorem within_call (c : Call) : Keeps (Within collection) (call c) := by
  intro client
  rw [perform_call]
  cases fate c.operation client.faults 0 <;> exact fun _ _ => rfl

theorem within_put (key : DocumentKey) (fields : Fields) :
    Keeps (Within key.collection) (modifyStore (·.put key fields)) := by
  intro client key' hkey'
  refine client.store.get?_put_of_ne ?_ fields
  rintro rfl
  exact hkey' rfl

theorem within_setDocument (key : DocumentKey) (fields : Fields) :
    Keeps (Within key.collection) (setDocument key fields) :=
  keeps_bind .trans (within_call (.set key)) fun _ => within_put key fields

theorem within_updateDocument (key : DocumentKey) (updates : Fields) :
    Keeps (Within key.collection) (updateDocument key updates) := by
  refine keeps_bind .trans (within_call (.update key)) fun _ => ?_
  refine keeps_bind .trans (fun client => .refl client) fun client => ?_
  cases client.store.get? key with
  | none => exact keeps_throw .refl _
  | some fields => exact within_put key _

theorem within_orElse {action : Action α} (h : Keeps (Within collection) action) (fallback : α) :
    Keeps (Within collection) (orElse action fallback) :=
  keeps_tryCatch .trans h fun _ => keeps_pure .refl fallback

end Within

end SignatureSearch.Store
