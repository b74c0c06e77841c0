/-
# `Proofs.Database.Steps` — the steps of one replacement

A call that replaces the functions of a package looks for what is there, then it
reserves identifiers, then it commits one batch after the other.  For each of
these: what it does if it succeeds, and that it does nothing if not.

    queryWith_ok           it only reads
    perform_record         it moves the counter
    commitBatches_ok       it makes all writes, one commit for each batch
    commitBatches_error    it fails with one batch, after those before it

What such a call does, whatever is refused, a call does that shares the store
with others but is left alone by them (`replaceFunctions_run`).
-/
import SignatureSearch.Proofs.Database.Freshness
import SignatureSearch.Proofs.Store.Calls

namespace SignatureSearch.Database

open Store (Write Failure Call Client Keeps Spares Operation commitBatch perform fate queryWith
  perform_bind_eq_ok perform_bind_eq_error)

variable {settings : Settings} {client after : Client} {failure : Failure}

/-! ## The query -/

theorem queryWith_ok {collection field : String} {value : Json} {found : List (String × Fields)}
    (h : perform (queryWith collection field value) client = (.ok found, after)) :
    found = client.store.documentsWith collection field value ∧
      after = client.note (.stream collection) :=
  @Store.read_ok _ (.stream collection) (·.documentsWith collection field value) _ _ _ h

theorem queryWith_error {collection field : String} {value : Json}
    (h : perform (queryWith collection field value) client = (.error failure, after)) :
    after = client.note (.stream collection) :=
  @Store.read_error _ (.stream collection) (·.documentsWith collection field value) _ _ _ h

/-! ## Commits -/

/-- The call that commits a batch: it says how many writes set something, and how many delete. -/
def commitCall (batch : List Write) : Call :=
  let sets := batch.countP fun
    | .set _ _ => true
    | .delete _ => false
  .commitBatch sets (batch.length - sets)

theorem commitCall_sets (settings : Settings) (records : List FunctionRecord) :
    commitCall (records.map (setFunction settings)) = .commitBatch records.length 0 := by
  simp [commitCall, List.countP_map, Function.comp_def, setFunction]

theorem commitCall_deletes (settings : Settings) (ids : List String) :
    commitCall (ids.map (deleteFunction settings)) = .commitBatch 0 ids.length := by
  simp [commitCall, List.countP_map, Function.comp_def, deleteFunction]

theorem perform_commitBatch (batch : List Write) (client : Client) :
    perform (commitBatch batch) client =
      match fate .commitBatch client.faults 0 with
      | some failure => (.error failure, client.note (commitCall batch))
      | none =>
          (.ok (), { client.note (commitCall batch) with store := client.store.commit batch }) := by
  rw [commitBatch]
  exact Store.perform_call_bind _ _ client

theorem commitBatch_ok {batch : List Write}
    (h : perform (commitBatch batch) client = (.ok (), after)) :
    after.store = client.store.commit batch ∧ after.calls = commitCall batch :: client.calls := by
  rw [perform_commitBatch] at h
  cases hfate : fate .commitBatch client.faults 0 with
  | some failure => simp [hfate] at h
  | none =>
      rw [hfate] at h
      obtain ⟨-, rfl⟩ := Prod.mk.inj h
      exact ⟨rfl, rfl⟩

theorem commitBatch_error {batch : List Write}
    (h : perform (commitBatch batch) client = (.error failure, after)) :
    after.store = client.store := by
  rw [perform_commitBatch] at h
  cases hfate : fate .commitBatch client.faults 0 with
  | some failure' =>
      rw [hfate] at h
      obtain ⟨-, rfl⟩ := Prod.mk.inj h
      rfl
  | none => simp [hfate] at h

theorem commitBatches_append (first second : List (List Write)) :
    commitBatches (first ++ second) = (do commitBatches first; commitBatches second) := by
  induction first with
  | nil => simp [commitBatches]
  | cons batch rest ih => simp [commitBatches, ih]

theorem commitBatches_ok {pending : List (List Write)}
    (h : perform (commitBatches pending) client = (.ok (), after)) :
    after.store = client.store.commit pending.flatten ∧
      after.calls = (pending.map commitCall).reverse ++ client.calls := by
  induction pending generalizing client with
  | nil =>
      obtain ⟨-, rfl⟩ := Prod.mk.inj h
      exact ⟨rfl, rfl⟩
  | cons batch rest ih =>
      obtain ⟨_, mid, hfirst, hrest⟩ := perform_bind_eq_ok.mp h
      obtain ⟨hstore, hcalls⟩ := commitBatch_ok hfirst
      obtain ⟨hstore', hcalls'⟩ := ih hrest
      rw [hstore', hstore, hcalls', hcalls]
      refine ⟨(Store.commit_append _ _ _).symm, ?_⟩
      rw [List.map_cons, List.reverse_cons, List.append_assoc]
      rfl

/-- Batches of which one is not committed: those before it are. -/
theorem commitBatches_error {pending : List (List Write)} :
    perform (commitBatches pending) client = (.error failure, after) ↔
      ∃ k batch mid, pending[k]? = some batch ∧
        perform (commitBatches (pending.take k)) client = (.ok (), mid) ∧
        perform (commitBatch batch) mid = (.error failure, after) := by
  constructor
  · intro h
    induction pending generalizing client with
    | nil => exact absurd (Prod.mk.inj h).1 (by simp)
    | cons batch rest ih =>
        rcases perform_bind_eq_error.mp h with hfirst | ⟨_, mid, hfirst, hrest⟩
        · exact ⟨0, batch, client, rfl, rfl, hfirst⟩
        · obtain ⟨k, batch', mid', hk, htake, hfail⟩ := ih hrest
          exact ⟨k + 1, batch', mid', hk, perform_bind_eq_ok.mpr ⟨_, mid, hfirst, htake⟩, hfail⟩
  · rintro ⟨k, batch, mid, hk, htake, hfail⟩
    obtain ⟨hlt, rfl⟩ := List.getElem?_eq_some_iff.mp hk
    have hsplit := List.take_append_drop k pending
    rw [List.drop_eq_getElem_cons hlt] at hsplit
    rw [← hsplit, commitBatches_append]
    refine perform_bind_eq_error.mpr (Or.inr ⟨_, mid, htake, ?_⟩)
    exact perform_bind_eq_error.mpr (Or.inl hfail)

/-! ## The reservation -/

theorem perform_record (drafts : List FunctionDraft) (client : Client) :
    match perform (record settings drafts) client with
    | (.ok records, after) =>
        (drafts = [] ∧ records = [] ∧ after = client) ∨
        drafts ≠ [] ∧ ∃ first fields,
          advance drafts.length (client.store.get? (counterKey settings)) = .ok (first, fields) ∧
          number first drafts = .ok records ∧
          after.store = client.store.put (counterKey settings) fields
    | (.error failure, after) => drafts ≠ [] ∧ (after.store = client.store ∨ ∃ first fields,
        advance drafts.length (client.store.get? (counterKey settings)) = .ok (first, fields) ∧
        number first drafts = .error failure ∧
        after.store = client.store.put (counterKey settings) fields) := by
  cases drafts with
  | nil => exact Or.inl ⟨rfl, rfl, rfl⟩
  | cons draft rest =>
      have htransact := @Store.perform_transact _ (counterKey settings)
        (advance (draft :: rest).length) client
      have hrecord : record settings (draft :: rest) =
          (do
            let first ← reserveIds settings (draft :: rest).length
            liftM (number first (draft :: rest))) := by
        rfl
      rw [hrecord, Store.perform_bind, reserveIds]
      generalize perform (Store.transact (counterKey settings)
        (advance (draft :: rest).length)) client = outcome at htransact
      obtain ⟨failure | first, after⟩ := outcome
      · exact ⟨List.cons_ne_nil _ _, Or.inl htransact⟩
      · obtain ⟨fields, hadvance, hstore⟩ := htransact
        dsimp only
        rw [Store.perform_liftM]
        cases hnumber : number first (draft :: rest) with
        | error failure =>
            exact ⟨List.cons_ne_nil _ _, Or.inr ⟨first, fields, hadvance, hnumber, hstore⟩⟩
        | ok records =>
            exact Or.inr ⟨List.cons_ne_nil _ _, first, fields, hadvance, hnumber, hstore⟩

theorem spares_record {op : Operation} (h : Store.IsOutside op) (drafts : List FunctionDraft) :
    Keeps (Spares op) (record settings drafts) := by
  cases drafts with
  | nil => exact Store.keeps_pure .refl []
  | cons draft rest =>
      refine Store.keeps_bind .trans (Store.spares_transact h) fun first => ?_
      exact Store.keeps_liftM .refl _

/-- With a counter at `n`, drafts get the identifiers from there on, and only the counter changes. -/
theorem record_ok {drafts : List FunctionDraft} {records : List FunctionRecord} {n : Nat}
    (hcounts : Counts settings client.store n)
    (h : perform (record settings drafts) client = (.ok records, after)) :
    records = numbered n drafts ∧ Counts settings after.store (n + drafts.length) ∧
      ∀ key ≠ counterKey settings, after.store.get? key = client.store.get? key := by
  have hrecord := @perform_record settings drafts client
  rw [h] at hrecord
  rcases hrecord with ⟨rfl, rfl, rfl⟩ | ⟨-, first, fields, hadvance, hnumber, hstore⟩
  · exact ⟨rfl, hcounts, fun _ _ => rfl⟩
  · rw [advance_eq hcounts] at hadvance
    obtain ⟨rfl, rfl⟩ := Prod.mk.inj (Except.ok.inj hadvance)
    rw [number_eq] at hnumber
    refine ⟨(Except.ok.inj hnumber).symm, ?_, ?_⟩
    · rw [hstore]
      exact .put settings client.store (n + drafts.length)
    · intro key hkey
      rw [hstore, client.store.get?_put_of_ne hkey]

theorem record_error {drafts : List FunctionDraft} {n : Nat}
    (hcounts : Counts settings client.store n)
    (h : perform (record settings drafts) client = (.error failure, after)) :
    after.store = client.store := by
  have hrecord := @perform_record settings drafts client
  rw [h] at hrecord
  rcases hrecord.2 with hstore | ⟨first, fields, hadvance, hnumber, -⟩
  · exact hstore
  · rw [advance_eq hcounts] at hadvance
    obtain ⟨rfl, rfl⟩ := Prod.mk.inj (Except.ok.inj hadvance)
    rw [number_eq] at hnumber
    exact absurd hnumber (by simp)

/-! ## All steps -/

section Replacement

variable {packageId : String} {drafts : List FunctionDraft} {records : List FunctionRecord}

theorem replaceFunctions_eq (settings : Settings) (packageId : String)
    (drafts : List FunctionDraft) :
    replaceFunctions settings packageId drafts = (do
      let found ← queryWith (functions settings) "packageId" (.str packageId)
      let records ← record settings drafts
      commitBatches (allBatches settings (found.map (·.1)) records)
      return records) := by
  simp [replaceFunctions, allBatches, commitBatches_append]

/-- Of the operations outside of transactions a call makes queries and commits only. -/
theorem spares_replaceFunctions {op : Operation} (h : Store.IsOutside op) (hstream : .stream ≠ op)
    (hbatch : .commitBatch ≠ op) (packageId : String) (drafts : List FunctionDraft) :
    Keeps (Spares op) (replaceFunctions settings packageId drafts) := by
  have hcommit : ∀ pending, Keeps (Spares op) (commitBatches pending) := by
    intro pending
    induction pending with
    | nil => exact Store.keeps_pure .refl ()
    | cons batch rest ih =>
        refine Store.keeps_bind .trans ?_ fun _ => ih
        exact Store.keeps_bind .trans (Store.spares_call (c := commitCall batch) hbatch)
          fun _ => Store.spares_modifyStore _
  rw [replaceFunctions_eq]
  refine Store.keeps_bind .trans ?_ fun found => ?_
  · exact Store.keeps_bind .trans (Store.spares_call (c := .stream _) hstream)
      fun _ client => .refl client
  · refine Store.keeps_bind .trans (spares_record h drafts) fun records => ?_
    exact Store.keeps_bind .trans (hcommit _) fun _ => Store.keeps_pure .refl records

theorem fixes_replaceFunctions {key : DocumentKey} (hkey : key.collection ≠ functions settings)
    (hcounter : key ≠ counterKey settings) (packageId : String) (drafts : List FunctionDraft) :
    Keeps (Store.Fixes key) (replaceFunctions settings packageId drafts) := by
  have hcommit : ∀ pending : List (List Write),
      (∀ batch ∈ pending, ∀ w ∈ batch, w.key.collection = functions settings) →
      Keeps (Store.Fixes key) (commitBatches pending) := by
    intro pending hpending
    induction pending with
    | nil => exact Store.keeps_pure .refl ()
    | cons batch rest ih =>
        rw [List.forall_mem_cons] at hpending
        refine Store.keeps_bind .trans (Store.fixes_commitBatch fun hmem => ?_)
          fun _ => ih hpending.2
        obtain ⟨w, hw, rfl⟩ := List.mem_map.mp hmem
        exact hkey (hpending.1 w hw)
  rw [replaceFunctions_eq]
  refine Store.keeps_bind .trans ?_ fun found => ?_
  · exact Store.keeps_bind .trans (Store.fixes_call (.stream _)) fun _ client => .refl client
  refine Store.keeps_bind .trans ?_ fun records => ?_
  · cases drafts with
    | nil => exact Store.keeps_pure .refl []
    | cons draft rest =>
        refine Store.keeps_bind .trans (Store.fixes_transact hcounter _) fun first => ?_
        exact Store.keeps_liftM .refl _
  · refine Store.keeps_bind .trans (hcommit _ ?_) fun _ => Store.keeps_pure .refl records
    intro batch hbatch w hw
    exact collection_of_mem_allBatches (List.mem_flatten.mpr ⟨batch, hbatch, hw⟩)

theorem replaceFunctions_ok
    (h : perform (replaceFunctions settings packageId drafts) client = (.ok records, after)) :
    ∃ found first second,
      perform (queryWith (functions settings) "packageId" (.str packageId)) client =
        (.ok found, first) ∧
      perform (record settings drafts) first = (.ok records, second) ∧
      perform (commitBatches (allBatches settings (found.map (·.1)) records)) second =
        (.ok (), after) := by
  rw [replaceFunctions_eq] at h
  obtain ⟨found, first, hquery, h⟩ := perform_bind_eq_ok.mp h
  obtain ⟨records', second, hrecord, h⟩ := perform_bind_eq_ok.mp h
  obtain ⟨_, third, hcommit, h⟩ := perform_bind_eq_ok.mp h
  obtain ⟨hrecords, rfl⟩ := Prod.mk.inj h
  obtain rfl := Except.ok.inj hrecords
  exact ⟨found, first, second, hquery, hrecord, hcommit⟩

theorem replaceFunctions_error :
    perform (replaceFunctions settings packageId drafts) client = (.error failure, after) ↔
      perform (queryWith (functions settings) "packageId" (.str packageId)) client =
        (.error failure, after) ∨
      ∃ found first,
        perform (queryWith (functions settings) "packageId" (.str packageId)) client =
          (.ok found, first) ∧
        (perform (record settings drafts) first = (.error failure, after) ∨
        ∃ records second, perform (record settings drafts) first = (.ok records, second) ∧
          perform (commitBatches (allBatches settings (found.map (·.1)) records)) second =
            (.error failure, after)) := by
  rw [replaceFunctions_eq, perform_bind_eq_error]
  refine or_congr_right (exists₂_congr fun found first => and_congr_right fun _ => ?_)
  rw [perform_bind_eq_error]
  refine or_congr_right (exists₂_congr fun records second => and_congr_right fun _ => ?_)
  rw [perform_bind_eq_error]
  refine or_iff_left ?_
  rintro ⟨_, mid, -, hreturn⟩
  exact absurd (Prod.mk.inj hreturn).1 (by simp)

end Replacement

/-! ## A call that is left alone -/

namespace SharedStore

open State

variable {τ : Type} [DecidableEq τ]

/-- By steps of one call a state leads to another one. -/
def Leads (settings : Settings) (t : τ) (s s' : State τ) : Prop :=
  ∃ (steps : List Step) (log : List (Event τ)),
    s.run settings (steps.map (Prod.mk t)) = some (s', log)

namespace Leads

variable {t : τ} {s s' s'' : State τ}

theorem refl (settings : Settings) (t : τ) (s : State τ) : Leads settings t s s :=
  ⟨[], [], rfl⟩

theorem trans (h : Leads settings t s s') (h' : Leads settings t s' s'') :
    Leads settings t s s'' := by
  obtain ⟨steps, log, hrun⟩ := h
  obtain ⟨steps', log', hrun'⟩ := h'
  refine ⟨steps ++ steps', log ++ log', ?_⟩
  rw [List.map_append]
  exact run_append hrun hrun'

theorem of_step {step : Step} {seen : List (Event τ)}
    (h : s.step settings t step = some (s', seen)) : Leads settings t s s' := by
  refine ⟨[step], seen ++ [], ?_⟩
  rw [List.map_singleton, run, h]
  rfl

theorem fail (settings : Settings) {r : Replacement} (h : (s.stage t).call? = some r) :
    Leads settings t s (s.setStage t (.failed r)) := by
  have hstep : s.step settings t .fail = some (s.enter t (.failed r)) := by
    simp [State.step, h]
  exact of_step hstep

theorem commits (settings : Settings) {r : Replacement} {records : List FunctionRecord}
    {pending : List (List Write)} (ht : s.stage t = .after r records pending) (k : Nat) :
    ∃ s', Leads settings t s s' ∧ s'.store = s.store.commit (pending.take k).flatten ∧
      s'.stage t = .after r records (pending.drop k) := by
  induction k generalizing s pending with
  | zero => exact ⟨s, refl settings t s, rfl, ht⟩
  | succ k ih =>
      cases pending with
      | nil => exact ⟨s, refl settings t s, rfl, ht⟩
      | cons batch rest =>
          have hstep : s.step settings t .proceed = some (s.commit t r records batch rest) := by
            simp [State.step, ht, Stage.after]
          have hstage : (s.commit t r records batch rest).1.stage t = .after r records rest :=
            setStage_self _ _ _
          obtain ⟨s', hleads, hstore, hstage⟩ := ih hstage
          refine ⟨s', (of_step hstep).trans hleads, ?_, hstage⟩
          rw [hstore, List.take_succ_cons, List.flatten_cons, Store.commit_append]
          rfl

end Leads

/-- The stage of a call that knows what it found. -/
def Stage.afterQuery (settings : Settings) (r : Replacement) (stale : List String) : Stage :=
  if r.drafts.isEmpty then .after r [] (r.plan settings stale []) else .reserves r stale

section SingleCall

variable {r : Replacement} {s : State τ} {t : τ} {first : Client} {found : List (String × Fields)}

theorem leads_begin (settings : Settings) (ht : s.stage t = .idle) (r : Replacement) :
    Leads settings t s (s.setStage t (.queries r)) := by
  have hstep : s.step settings t (.begin r) = some (s.enter t (.queries r)) := by
    simp [State.step, ht]
  exact .of_step hstep

theorem leads_query (settings : Settings) (ht : s.stage t = .idle)
    (hclient : client.store = s.store)
    (hquery : perform (queryWith (functions settings) "packageId" (.str r.packageId)) client =
      (.ok found, first)) :
    ∃ s', Leads settings t s s' ∧ s'.store = first.store ∧
      s'.stage t = .afterQuery settings r (found.map (·.1)) := by
  obtain ⟨rfl, rfl⟩ := queryWith_ok hquery
  have hstep : (s.setStage t (.queries r)).step settings t .proceed =
      some ((s.setStage t (.queries r)).query settings t r) := by
    simp [State.step, setStage_self]
  refine ⟨_, (leads_begin settings ht r).trans (.of_step hstep), hclient.symm, ?_⟩
  rw [hclient]
  exact setStage_self _ _ _

/-- A reservation that takes identifiers from the counter: the drafts get them, or the call fails. -/
theorem reserve_spec (s : State τ) (t : τ) {stale : List String} {next : Json} {fields : Fields}
    (hadvance : advance r.drafts.length (s.store.get? (counterKey settings)) = .ok (next, fields)) :
    (s.reserve settings t r stale).1.store = s.store.put (counterKey settings) fields ∧
    (∀ failure, number next r.drafts = .error failure →
      (s.reserve settings t r stale).1.stage t = .failed r) ∧
    ∀ records, number next r.drafts = .ok records →
      (s.reserve settings t r stale).1.stage t =
        .after r records (r.plan settings stale records) := by
  rw [State.reserve, hadvance]
  refine ⟨rfl, fun failure hnumber => ?_, fun records hnumber => ?_⟩
  · dsimp only
    rw [hnumber]
    exact setStage_self _ _ _
  · dsimp only
    rw [hnumber]
    exact setStage_self _ _ _

theorem leads_record {stale : List String} (hfirst : s.store = first.store)
    (ht : s.stage t = .afterQuery settings r stale) :
    ∃ s', Leads settings t s s' ∧
      match perform (record (r.settings settings) r.drafts) first with
      | (.ok records, after) => s'.store = after.store ∧
          s'.stage t = .after r records (allBatches (r.settings settings) stale records)
      | (.error _, after) => s'.store = after.store ∧ s'.stage t = .failed r := by
  have hrecord := @perform_record (r.settings settings) r.drafts first
  generalize perform (record (r.settings settings) r.drafts) first = outcome at hrecord
  by_cases hdrafts : r.drafts = []
  · rw [Stage.afterQuery, if_pos (List.isEmpty_iff.mpr hdrafts)] at ht
    obtain ⟨failure | records, after⟩ := outcome
    · exact absurd hdrafts hrecord.1
    · rcases hrecord with ⟨-, rfl, rfl⟩ | ⟨hne, -⟩
      · exact ⟨s, .refl settings t s, hfirst, ht⟩
      · exact absurd hdrafts hne
  · rw [Stage.afterQuery, if_neg (mt List.isEmpty_iff.mp hdrafts)] at ht
    have hreserve : Leads settings t s (s.reserve settings t r stale).1 := by
      have hstep : s.step settings t .proceed = some (s.reserve settings t r stale) := by
        simp [State.step, ht]
      exact .of_step hstep
    rw [← hfirst] at hrecord
    obtain ⟨failure | records, after⟩ := outcome
    · rcases hrecord.2 with hstore | ⟨first, fields, hadvance, hnumber, hstore⟩
      · exact ⟨_, .fail settings (by rw [ht]; rfl), hstore.symm, setStage_self _ _ _⟩
      · obtain ⟨hput, hfailed, -⟩ := reserve_spec s t hadvance
        exact ⟨_, hreserve, hput.trans hstore.symm, hfailed failure hnumber⟩
    · rcases hrecord with ⟨hnil, -⟩ | ⟨-, first, fields, hadvance, hnumber, hstore⟩
      · exact absurd hnil hdrafts
      · obtain ⟨hput, -, hreserved⟩ := reserve_spec s t hadvance
        exact ⟨_, hreserve, hput.trans hstore.symm, hreserved records hnumber⟩

/-- What a call does, whatever is refused to it, is what some of its steps do when it shares the
store with others and these do nothing. -/
theorem replaceFunctions_run (settings : Settings) (r : Replacement) (ht : s.stage t = .idle)
    (hclient : client.store = s.store) :
    ∃ s', Leads settings t s s' ∧
      match perform (replaceFunctions (r.settings settings) r.packageId r.drafts) client with
      | (.ok records, after) => s'.store = after.store ∧ s'.stage t = .returned r records
      | (.error _, after) => s'.store = after.store ∧ s'.stage t = .failed r := by
  generalize houtcome :
    perform (replaceFunctions (r.settings settings) r.packageId r.drafts) client = outcome
  obtain ⟨failure | records, after⟩ := outcome
  · rcases replaceFunctions_error.mp houtcome with hquery | ⟨found, first, hquery, hrest⟩
    · have hcall : ((s.setStage t (.queries r)).stage t).call? = some r := by
        rw [setStage_self]
        rfl
      refine ⟨_, (leads_begin settings ht r).trans (.fail settings hcall), ?_, setStage_self _ _ _⟩
      rw [queryWith_error hquery]
      exact hclient.symm
    · obtain ⟨s₁, hleads₁, hstore₁, hstage₁⟩ := leads_query settings ht hclient hquery
      obtain ⟨s₂, hleads₂, hs₂⟩ := leads_record hstore₁ hstage₁
      rcases hrest with hrecord | ⟨records, second, hrecord, hcommit⟩
      · rw [hrecord] at hs₂
        exact ⟨s₂, hleads₁.trans hleads₂, hs₂⟩
      · rw [hrecord] at hs₂
        obtain ⟨k, batch, mid, hk, htake, hfail⟩ := commitBatches_error.mp hcommit
        obtain ⟨s₃, hleads₃, hstore₃, hstage₃⟩ := Leads.commits settings hs₂.2 k
        have hcall : (s₃.stage t).call? = some r := by
          obtain ⟨hlt, -⟩ := List.getElem?_eq_some_iff.mp hk
          rw [hstage₃, List.drop_eq_getElem_cons hlt]
          rfl
        refine ⟨_, (hleads₁.trans hleads₂).trans (hleads₃.trans (.fail settings hcall)), ?_,
          setStage_self _ _ _⟩
        rw [commitBatch_error hfail, (commitBatches_ok htake).1, ← hs₂.1]
        exact hstore₃
  · obtain ⟨found, first, second, hquery, hrecord, hcommit⟩ := replaceFunctions_ok houtcome
    obtain ⟨s₁, hleads₁, hstore₁, hstage₁⟩ := leads_query settings ht hclient hquery
    obtain ⟨s₂, hleads₂, hs₂⟩ := leads_record hstore₁ hstage₁
    rw [hrecord] at hs₂
    obtain ⟨s₃, hleads₃, hstore₃, hstage₃⟩ := Leads.commits settings hs₂.2
      (allBatches (r.settings settings) (found.map (·.1)) records).length
    refine ⟨s₃, (hleads₁.trans hleads₂).trans hleads₃, ?_, ?_⟩
    · rw [hstore₃, (commitBatches_ok hcommit).1, hs₂.1, List.take_length]
    · rw [hstage₃, List.drop_length]
      rfl

end SingleCall
end SharedStore
end SignatureSearch.Database
