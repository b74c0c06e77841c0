/-
# `Proofs.Database.Freshness` — no identifier is used twice

Calls that replace functions share a store and mix their steps in any way.  What
a call still has to write, `Stage.remaining`, keeps out of the way of what was
ever written and of what others will write:

    Intends    what one call means to do: it sets documents under keys that were
               never used, and deletes documents of its own package only
    Sound      the counter is above all identifiers in use, every document is
               under its own one, and no two calls mean to set the same key

Every step of every call keeps this (`Sound.step`).  A call that comes to another
stage without touching the store drops intentions or finds what it will delete
(`Sound.setStage`), a reservation takes identifiers that nobody has
(`Sound.advance`), and a commit uses up intentions (`Sound.commit`).
-/
import SignatureSearch.Database.SharedStore
import SignatureSearch.Proofs.Database.Numbering

namespace SignatureSearch.Database.SharedStore

open Store (Write setKeys mem_setKeys)

variable {τ : Type}

/-! ## What calls have done and will do -/

/-- The keys that were set so far. -/
def written (log : List (Event τ)) : List DocumentKey :=
  log.flatMap fun
    | .committed _ writes => setKeys writes
    | _ => []

/-- The reservations so far: the first identifier of each, and how many it took. -/
def reservations (log : List (Event τ)) : List (Json × Nat) :=
  log.filterMap fun
    | .reserved _ first count => some (first, count)
    | _ => none

theorem written_append (log more : List (Event τ)) :
    written (log ++ more) = written log ++ written more :=
  List.flatMap_append

theorem reservations_append (log more : List (Event τ)) :
    reservations (log ++ more) = reservations log ++ reservations more :=
  List.filterMap_append

theorem written_events (t : τ) (stage : Stage) : written (stage.events t) = [] := by
  cases stage <;> rfl

theorem reservations_events (t : τ) (stage : Stage) : reservations (stage.events t) = [] := by
  cases stage <;> rfl

/-- What a call still has to write.  What it found it will delete. -/
def Stage.remaining (settings : Settings) : Stage → List Write
  | .reserves _ stale => stale.map (deleteFunction settings)
  | .commits _ _ batch rest => batch ++ rest.flatten
  | _ => []

theorem remaining_of_call?_eq_none {settings : Settings} {stage : Stage} (h : stage.call? = none) :
    stage.remaining settings = [] := by
  cases stage with
  | reserves r stale => exact absurd h (by simp [Stage.call?])
  | commits r records batch rest => exact absurd h (by simp [Stage.call?])
  | _ => rfl

theorem remaining_after (settings : Settings) (r : Replacement) (records : List FunctionRecord)
    (pending : List (List Write)) :
    (Stage.after r records pending).remaining settings = pending.flatten := by
  cases pending <;> rfl

theorem call?_after {r r' : Replacement} {records : List FunctionRecord}
    {pending : List (List Write)} (h : (Stage.after r records pending).call? = some r') :
    r' = r := by
  cases pending with
  | nil => exact absurd h (by simp [Stage.after, Stage.call?])
  | cons batch rest => exact (Option.some.inj h).symm

theorem flatten_plan (r : Replacement) (settings : Settings) (stale : List String)
    (records : List FunctionRecord) :
    (r.plan settings stale records).flatten =
      records.map (setFunction settings) ++
        (outdated stale records).map (deleteFunction settings) :=
  flatten_allBatches (r.settings settings) stale records

theorem setKeys_deleteFunction (settings : Settings) (ids : List String) :
    setKeys (ids.map (deleteFunction settings)) = [] := by
  induction ids with
  | nil => rfl
  | cons id ids ih => exact ih

theorem setKeys_setFunction (settings : Settings) (records : List FunctionRecord) :
    setKeys (records.map (setFunction settings)) =
      records.map fun r => functionKey settings r.id := by
  induction records with
  | nil => rfl
  | cons r records ih => exact congrArg _ ih

/-! ## Intentions -/

/-- What a call for a package means to do to a store in which some keys were used and the counter
stands at `n`. -/
structure Intends (settings : Settings) (store : Store) (used : List DocumentKey) (n : Nat)
    (packageId : String) (writes : List Write) : Prop where
  sets : ∀ key fields, .set key fields ∈ writes → key ∉ used ∧ ∃ r : FunctionRecord,
    r.id < n ∧ r.packageId = packageId ∧ key = functionKey settings r.id ∧ fields = r.toFields
  nodup : (setKeys writes).Nodup
  deletes : ∀ key, .delete key ∈ writes → key ∈ used ∧
    ∀ fields, store.get? key = some fields → Json.field? fields "packageId" = some (.str packageId)

namespace Intends

variable {settings : Settings} {store : Store} {used : List DocumentKey} {n : Nat}
  {packageId : String} {writes : List Write}

theorem nil : Intends settings store used n packageId [] :=
  ⟨nofun, List.nodup_nil, nofun⟩

theorem sublist {writes' : List Write} (h : Intends settings store used n packageId writes)
    (hsub : writes'.Sublist writes) : Intends settings store used n packageId writes' where
  sets key fields hset := h.sets key fields (hsub.subset hset)
  nodup := h.nodup.sublist (hsub.filterMap _)
  deletes key hdelete := h.deletes key (hsub.subset hdelete)

theorem setKey (h : Intends settings store used n packageId writes) {key : DocumentKey}
    (hkey : key ∈ setKeys writes) : key ∉ used ∧ ∃ id < n, key = functionKey settings id := by
  obtain ⟨fields, hset⟩ := mem_setKeys.mp hkey
  obtain ⟨hunused, r, hid, -, hkey, -⟩ := h.sets key fields hset
  exact ⟨hunused, r.id, hid, hkey⟩

theorem collection_eq (h : Intends settings store used n packageId writes)
    (hused : ∀ key ∈ used, ∃ id < n, key = functionKey settings id) {key : DocumentKey}
    (hkey : key ∈ writes.map Write.key) : key.collection = functions settings := by
  obtain ⟨w, hw, rfl⟩ := List.mem_map.mp hkey
  cases w with
  | set key fields =>
      obtain ⟨-, r, -, -, hkey, -⟩ := h.sets key fields hw
      exact congrArg DocumentKey.collection hkey
  | delete key =>
      obtain ⟨id, -, hkey⟩ := hused key (h.deletes key hw).1
      exact congrArg DocumentKey.collection hkey

/-- Intentions outlast changes of the store that bring no document under a used key. -/
theorem mono {store' : Store} {used' : List DocumentKey} {n' : Nat}
    (h : Intends settings store used n packageId writes) (hn : n ≤ n') (hused : used ⊆ used')
    (hfresh : ∀ key ∈ setKeys writes, key ∉ used')
    (hstore : ∀ key ∈ used, ∀ fields, store'.get? key = some fields →
      store.get? key = some fields) : Intends settings store' used' n' packageId writes where
  sets key fields hset := by
    obtain ⟨-, r, hid, hr⟩ := h.sets key fields hset
    exact ⟨hfresh key (mem_setKeys.mpr ⟨fields, hset⟩), r, hid.trans_le hn, hr⟩
  nodup := h.nodup
  deletes key hdelete := by
    obtain ⟨hkey, hpackage⟩ := h.deletes key hdelete
    exact ⟨hused hkey, fun fields hfields => hpackage fields (hstore key hkey fields hfields)⟩

end Intends

namespace State

variable [DecidableEq τ]

theorem setStage_self (s : State τ) (t : τ) (stage : Stage) : (s.setStage t stage).stage t = stage :=
  if_pos rfl

theorem setStage_of_ne (s : State τ) {t t' : τ} (h : t' ≠ t) (stage : Stage) :
    (s.setStage t stage).stage t' = s.stage t' :=
  if_neg h

/-! ## What one step can do -/

theorem step_cases {settings : Settings} {s s' : State τ} {t : τ} {step : Step}
    {seen : List (Event τ)} (h : s.step settings t step = some (s', seen)) :
    (∃ r, step = .begin r ∧ s.stage t = .idle ∧ (s', seen) = s.enter t (.queries r)) ∨
    (∃ r, step = .proceed ∧ s.stage t = .queries r ∧ (s', seen) = s.query settings t r) ∨
    (∃ r stale, step = .proceed ∧ s.stage t = .reserves r stale ∧
      (s', seen) = s.reserve settings t r stale) ∨
    (∃ r records batch rest, step = .proceed ∧ s.stage t = .commits r records batch rest ∧
      (s', seen) = s.commit t r records batch rest) ∨
    ∃ r, step = .fail ∧ (s.stage t).call? = some r ∧ (s', seen) = s.enter t (.failed r) := by
  unfold State.step at h
  split at h
  · next r ht => exact Or.inl ⟨r, rfl, ht, (Option.some.inj h).symm⟩
  · next r ht => exact Or.inr (Or.inl ⟨r, rfl, ht, (Option.some.inj h).symm⟩)
  · next r stale ht =>
      exact Or.inr (Or.inr (Or.inl ⟨r, stale, rfl, ht, (Option.some.inj h).symm⟩))
  · next r records batch rest ht =>
      exact Or.inr (Or.inr (Or.inr (Or.inl
        ⟨r, records, batch, rest, rfl, ht, (Option.some.inj h).symm⟩)))
  · obtain ⟨r, hr, heq⟩ := Option.map_eq_some_iff.mp h
    exact Or.inr (Or.inr (Or.inr (Or.inr ⟨r, rfl, hr, heq.symm⟩)))
  · exact absurd h (Option.some_ne_none _).symm

/-- What holds at the start, and is kept by every step, holds after every run. -/
theorem run_induction {settings : Settings} {P : State τ → List (Event τ) → Prop}
    (hstep : ∀ s log t step s' seen, P s log → s.step settings t step = some (s', seen) →
      P s' (log ++ seen)) {s s' : State τ} {steps : List (τ × Step)} {seen : List (Event τ)}
    (log : List (Event τ)) (h : P s log) (hrun : s.run settings steps = some (s', seen)) :
    P s' (log ++ seen) := by
  induction steps generalizing s log seen with
  | nil =>
      obtain ⟨rfl, rfl⟩ := Prod.mk.inj (Option.some.inj hrun)
      rwa [List.append_nil]
  | cons first rest ih =>
      obtain ⟨t, step⟩ := first
      obtain ⟨⟨next, seen₁⟩, hfirst, hrest⟩ := Option.bind_eq_some_iff.mp hrun
      obtain ⟨⟨last, seen₂⟩, hrun', heq⟩ := Option.map_eq_some_iff.mp hrest
      obtain ⟨rfl, rfl⟩ := Prod.mk.inj heq
      rw [← List.append_assoc]
      exact ih (log ++ seen₁) (hstep s log t step next seen₁ h hfirst) hrun'

theorem run_append {settings : Settings} {s s₀ s' : State τ} {early late : List (τ × Step)}
    {log₀ log : List (Event τ)} (hearly : s.run settings early = some (s₀, log₀))
    (hlate : s₀.run settings late = some (s', log)) :
    s.run settings (early ++ late) = some (s', log₀ ++ log) := by
  induction early generalizing s log₀ with
  | nil =>
      obtain ⟨rfl, rfl⟩ := Prod.mk.inj (Option.some.inj hearly)
      exact hlate
  | cons first rest ih =>
      obtain ⟨t, step⟩ := first
      obtain ⟨⟨next, seen₁⟩, hstep, hrest⟩ := Option.bind_eq_some_iff.mp hearly
      obtain ⟨⟨last, seen₂⟩, hrun, heq⟩ := Option.map_eq_some_iff.mp hrest
      obtain ⟨rfl, rfl⟩ := Prod.mk.inj heq
      rw [List.cons_append, run, hstep, Option.bind_some]
      dsimp only
      rw [ih hrun, List.append_assoc]
      rfl

/-! ## Sound states -/

/-- The calls keep out of each other's way, and nothing in the store is in their way. -/
structure Sound (settings : Settings) (s : State τ) (log : List (Event τ)) (n : Nat) : Prop where
  counts : Counts settings s.store n
  documents : ∀ key fields, key.collection = functions settings →
    s.store.get? key = some fields → key ∈ written log ∧
      ∃ r : FunctionRecord, key = functionKey settings r.id ∧ fields = r.toFields
  used : ∀ key ∈ written log, ∃ id < n, key = functionKey settings id
  nodup : (written log).Nodup
  intends : ∀ t r, (s.stage t).call? = some r →
    Intends settings s.store (written log) n r.packageId ((s.stage t).remaining settings)
  apart : ∀ t t', t ≠ t' → ∀ key ∈ setKeys ((s.stage t).remaining settings),
    key ∉ setKeys ((s.stage t').remaining settings)
  reserved : ∃ ranges : List (Nat × Nat),
    reservations log = ranges.map (fun range => (.int range.1, range.2)) ∧
    (∀ range ∈ ranges, range.1 + range.2 ≤ n) ∧ ranges.Pairwise fun a b => a.1 + a.2 ≤ b.1

namespace Sound

variable {settings : Settings} {s : State τ} {log : List (Event τ)} {n : Nat}

omit [DecidableEq τ] in
theorem start {store : Store}
    (hfunctions : ∀ key, key.collection = functions settings → store.get? key = none)
    (hcounter : store.get? (counterKey settings) = none) :
    Sound settings ({ store } : State τ) [] 0 where
  counts := Or.inl ⟨hcounter, rfl⟩
  documents key fields hkey hfields := absurd hfields (by simp [hfunctions key hkey])
  used := nofun
  nodup := List.nodup_nil
  intends t r hr := absurd hr (by simp [Stage.call?])
  apart t t' _ key hkey := absurd hkey (by simp [Stage.remaining, setKeys])
  reserved := ⟨[], rfl, nofun, List.Pairwise.nil⟩

omit [DecidableEq τ] in
theorem silent (h : s.Sound settings log n) {seen : List (Event τ)} (hwritten : written seen = [])
    (hreserved : reservations seen = []) : s.Sound settings (log ++ seen) n := by
  have hlog : written (log ++ seen) = written log := by
    rw [written_append, hwritten, List.append_nil]
  have hlog' : reservations (log ++ seen) = reservations log := by
    rw [reservations_append, hreserved, List.append_nil]
  refine ⟨h.counts, ?_, ?_, ?_, ?_, h.apart, ?_⟩
  · rw [hlog]
    exact h.documents
  · rw [hlog]
    exact h.used
  · rw [hlog]
    exact h.nodup
  · rw [hlog]
    exact h.intends
  · rw [hlog']
    exact h.reserved

omit [DecidableEq τ] in
theorem setKey (h : s.Sound settings log n) {t : τ} {key : DocumentKey}
    (hkey : key ∈ setKeys ((s.stage t).remaining settings)) :
    key ∉ written log ∧ ∃ id < n, key = functionKey settings id := by
  cases hcall : (s.stage t).call? with
  | some r => exact (h.intends t r hcall).setKey hkey
  | none =>
      rw [remaining_of_call?_eq_none hcall] at hkey
      exact absurd hkey (by simp [setKeys])

theorem setStage (h : s.Sound settings log n) {t : τ} {stage : Stage}
    (hintends : ∀ r, stage.call? = some r →
      Intends settings s.store (written log) n r.packageId (stage.remaining settings))
    (hapart : ∀ t' ≠ t, ∀ key ∈ setKeys (stage.remaining settings),
      key ∉ setKeys ((s.stage t').remaining settings)) :
    (s.setStage t stage).Sound settings log n where
  counts := h.counts
  documents := h.documents
  used := h.used
  nodup := h.nodup
  intends t' r hr := by
    by_cases ht : t' = t
    · subst ht
      rw [setStage_self] at hr ⊢
      exact hintends r hr
    · rw [setStage_of_ne s ht] at hr ⊢
      exact h.intends t' r hr
  apart t₁ t₂ hne key hkey := by
    by_cases h₁ : t₁ = t
    · subst h₁
      rw [setStage_self] at hkey
      rw [setStage_of_ne s hne.symm]
      exact hapart t₂ hne.symm key hkey
    · rw [setStage_of_ne s h₁] at hkey
      by_cases h₂ : t₂ = t
      · subst h₂
        rw [setStage_self]
        exact fun hkey' => hapart t₁ hne key hkey' hkey
      · rw [setStage_of_ne s h₂]
        exact h.apart t₁ t₂ hne key hkey
  reserved := h.reserved

theorem setStage_of_sublist (h : s.Sound settings log n) {t : τ} {stage : Stage} {r : Replacement}
    (hcall : (s.stage t).call? = some r) (hstage : ∀ r', stage.call? = some r' → r' = r)
    (hsub : (stage.remaining settings).Sublist ((s.stage t).remaining settings)) :
    (s.setStage t stage).Sound settings log n := by
  refine h.setStage ?_ ?_
  · intro r' hr'
    rw [hstage r' hr']
    exact (h.intends t r hcall).sublist hsub
  · intro t' ht key hkey
    exact h.apart t t' ht.symm key ((hsub.filterMap _).subset hkey)

omit [DecidableEq τ] in
/-- A reservation moves the counter past the identifiers that it takes. -/
theorem advance (h : s.Sound settings log n) (t : τ) (count : Nat) :
    Sound settings
      { s with store := s.store.put (counterKey settings) [("next", .int (n + count : Nat))] }
      (log ++ [.reserved t (.int n) count]) (n + count) := by
  have hlog : written (log ++ [.reserved t (.int n) count]) = written log := by
    rw [written_append]
    exact List.append_nil _
  have hlog' : reservations (log ++ [.reserved t (.int n) count]) =
      reservations log ++ [(.int n, count)] :=
    reservations_append _ _
  have hother : ∀ key, key.collection = functions settings →
      (s.store.put (counterKey settings) [("next", .int (n + count : Nat))]).get? key =
        s.store.get? key := by
    intro key hkey
    exact s.store.get?_put_of_ne (ne_counterKey hkey) _
  have hused : ∀ key ∈ written log, key.collection = functions settings := by
    intro key hkey
    obtain ⟨id, -, rfl⟩ := h.used key hkey
    rfl
  refine ⟨Counts.put settings s.store (n + count), ?_, ?_, ?_, ?_, h.apart, ?_⟩
  · intro key fields hkey hfields
    rw [hlog]
    rw [hother key hkey] at hfields
    exact h.documents key fields hkey hfields
  · intro key hkey
    rw [hlog] at hkey
    obtain ⟨id, hid, hkey⟩ := h.used key hkey
    exact ⟨id, Nat.lt_add_right count hid, hkey⟩
  · rw [hlog]
    exact h.nodup
  · intro t' r hr
    rw [hlog]
    refine (h.intends t' r hr).mono (Nat.le_add_right n count) (List.Subset.refl _) ?_ ?_
    · exact fun key hkey => (h.setKey hkey).1
    · intro key hkey fields hfields
      rwa [hother key (hused key hkey)] at hfields
  · obtain ⟨ranges, hranges, hbelow, hpairwise⟩ := h.reserved
    refine ⟨ranges ++ [(n, count)], ?_, ?_, ?_⟩
    · rw [hlog', hranges, List.map_append]
      rfl
    · intro range hrange
      rcases List.mem_append.mp hrange with hold | hnew
      · exact Nat.le_add_right_of_le (hbelow range hold)
      · rw [List.mem_singleton.mp hnew]
    · rw [List.pairwise_append]
      refine ⟨hpairwise, List.pairwise_singleton _ _, fun range hrange next hnext => ?_⟩
      rw [List.mem_singleton.mp hnext]
      exact hbelow range hrange

omit [DecidableEq τ] in
theorem commit (h : s.Sound settings log n) (t : τ) {packageId : String} {batch : List Write}
    (hbatch : Intends settings s.store (written log) n packageId batch)
    (hapart : ∀ t', ∀ key ∈ setKeys batch, key ∉ setKeys ((s.stage t').remaining settings)) :
    Sound settings { s with store := s.store.commit batch } (log ++ [.committed t batch]) n := by
  have hlog : written (log ++ [.committed t batch]) = written log ++ setKeys batch := by
    rw [written_append]
    exact congrArg _ (List.append_nil _)
  have hlog' : reservations (log ++ [.committed t batch]) = reservations log := by
    rw [reservations_append]
    exact List.append_nil _
  refine ⟨?_, ?_, ?_, ?_, ?_, h.apart, ?_⟩
  · refine h.counts.congr (Store.get?_commit_of_notMem fun hkey => ?_)
    exact functions_ne_counters settings (hbatch.collection_eq h.used hkey).symm
  · intro key fields hkey hfields
    rw [hlog]
    rcases Store.get?_commit_eq_some hfields with hset | ⟨hold, -⟩
    · obtain ⟨-, r, -, -, hr⟩ := hbatch.sets key fields hset
      exact ⟨List.mem_append_right _ (mem_setKeys.mpr ⟨fields, hset⟩), r, hr⟩
    · obtain ⟨hmem, hr⟩ := h.documents key fields hkey hold
      exact ⟨List.mem_append_left _ hmem, hr⟩
  · intro key hkey
    rw [hlog] at hkey
    exact (List.mem_append.mp hkey).elim (h.used key) fun hnew => (hbatch.setKey hnew).2
  · rw [hlog, List.nodup_append']
    exact ⟨h.nodup, hbatch.nodup, fun key hkey hnew => (hbatch.setKey hnew).1 hkey⟩
  · intro t' r hr
    rw [hlog]
    refine (h.intends t' r hr).mono (Nat.le_refl n) (List.subset_append_left _ _) ?_ ?_
    · intro key hkey hused
      rcases List.mem_append.mp hused with hold | hnew
      · exact (h.setKey hkey).1 hold
      · exact hapart t' key hnew hkey
    · -- A key that was used before is not set again.
      intro key hkey fields hfields
      rcases Store.get?_commit_eq_some hfields with hset | ⟨hold, -⟩
      · exact absurd hkey (hbatch.sets key fields hset).1
      · exact hold
  · rw [hlog']
    exact h.reserved

/-! ## The steps of a call -/

omit [DecidableEq τ] in
theorem intends_found (h : s.Sound settings log n) (r : Replacement) :
    Intends settings s.store (written log) n r.packageId
      (((s.store.documentsWith (functions settings) "packageId" (.str r.packageId)).map
        (·.1)).map (deleteFunction settings)) where
  sets key fields hset := by
    have hkey := mem_setKeys.mpr ⟨fields, hset⟩
    rw [setKeys_deleteFunction] at hkey
    exact absurd hkey List.not_mem_nil
  nodup := by
    rw [setKeys_deleteFunction]
    exact List.nodup_nil
  deletes key hdelete := by
    obtain ⟨id, hid, heq⟩ := List.mem_map.mp hdelete
    obtain ⟨⟨id', fields⟩, hfound, rfl⟩ := List.mem_map.mp hid
    obtain rfl := Write.delete.inj heq
    obtain ⟨hfields, hpackage⟩ := Store.mem_documentsWith.mp hfound
    refine ⟨(h.documents _ fields rfl hfields).1, fun fields' hfields' => ?_⟩
    rw [← Option.some.inj (hfields.symm.trans hfields')]
    exact hpackage

theorem outdated_sublist (stale : List String) (records : List FunctionRecord) :
    (outdated stale records).Sublist stale :=
  List.filter_sublist

theorem query (h : s.Sound settings log n) {t : τ} (r : Replacement) :
    (s.query settings t r).1.Sound settings (log ++ (s.query settings t r).2) n := by
  have hfound := h.intends_found r
  refine silent (h.setStage ?_ ?_) (written_events t _) (reservations_events t _)
  · intro r' hr'
    split at hr' <;> split
    · rw [remaining_after, flatten_plan, List.map_nil, List.nil_append, call?_after hr']
      exact hfound.sublist ((outdated_sublist _ _).map _)
    · contradiction
    · contradiction
    · obtain rfl := Option.some.inj hr'
      exact hfound
  · intro t' ht key hkey
    split at hkey
    · rw [remaining_after, flatten_plan, List.map_nil, List.nil_append,
        setKeys_deleteFunction] at hkey
      exact absurd hkey List.not_mem_nil
    · rw [Stage.remaining, setKeys_deleteFunction] at hkey
      exact absurd hkey List.not_mem_nil

omit [DecidableEq τ] in
/-- With new identifiers a call means to set what nobody has set, and to delete what it found. -/
theorem intends_plan (h : s.Sound settings log n) {t : τ} {r : Replacement} {stale : List String}
    (ht : s.stage t = .reserves r stale) {first : Nat} (hn : first + r.drafts.length ≤ n)
    (hunused : ∀ key ∈ written log, ∃ id < first, key = functionKey settings id) :
    Intends settings s.store (written log) n r.packageId
      (r.plan settings stale (numbered first r.drafts)).flatten := by
  have hfound : Intends settings s.store (written log) n r.packageId
      (stale.map (deleteFunction settings)) := by
    have := h.intends t r (by rw [ht]; rfl)
    rwa [ht] at this
  rw [flatten_plan]
  refine ⟨?_, ?_, ?_⟩
  · intro key fields hset
    rcases List.mem_append.mp hset with hnew | hold
    · obtain ⟨record, hrecord, heq⟩ := List.mem_map.mp hnew
      obtain ⟨rfl, rfl⟩ := Write.set.inj heq
      obtain ⟨hfirst, hlast, -⟩ := mem_numbered hrecord
      refine ⟨fun hused => ?_, record, hlast.trans_le hn, packageId_of_mem_numbered r.owned hrecord,
        rfl, rfl⟩
      obtain ⟨id, hid, hkey⟩ := hunused _ hused
      rw [functionKey_inj.mp hkey] at hfirst
      exact absurd hid (Nat.not_lt.mpr hfirst)
    · exact absurd (List.mem_map.mp hold) (by simp [deleteFunction])
  · rw [Store.setKeys_append, setKeys_setFunction, setKeys_deleteFunction, List.append_nil]
    have hmap := (nodup_numbered first r.drafts).map (f := fun id : Nat => functionKey settings id) fun _ _ =>
      functionKey_inj.mp
    rwa [List.map_map] at hmap
  · intro key hdelete
    rcases List.mem_append.mp hdelete with hnew | hold
    · exact absurd (List.mem_map.mp hnew) (by simp [setFunction])
    · obtain ⟨id, hid, heq⟩ := List.mem_map.mp hold
      exact hfound.deletes key
        (List.mem_map.mpr ⟨id, (outdated_sublist _ _).subset hid, heq⟩)

omit [DecidableEq τ] in
theorem setKey_plan {r : Replacement} {stale : List String} {first : Nat} {key : DocumentKey}
    (hkey : key ∈ setKeys (r.plan settings stale (numbered first r.drafts)).flatten) :
    ∃ id, first ≤ id ∧ key = functionKey settings id := by
  rw [flatten_plan, Store.setKeys_append, setKeys_setFunction, setKeys_deleteFunction,
    List.append_nil] at hkey
  obtain ⟨record, hrecord, rfl⟩ := List.mem_map.mp hkey
  exact ⟨record.id, (mem_numbered hrecord).1, rfl⟩

theorem reserve_eq (h : s.Sound settings log n) (t : τ) (r : Replacement) (stale : List String) :
    s.reserve settings t r stale =
      let next : Fields := [("next", .int (n + r.drafts.length : Nat))]
      let records := numbered n r.drafts
      let stage := Stage.after r records (r.plan settings stale records)
      (State.setStage { s with store := s.store.put (counterKey settings) next } t stage,
        .reserved t (.int n) r.drafts.length :: stage.events t) := by
  rw [State.reserve, advance_eq h.counts]
  dsimp only
  rw [number_eq]
  rfl

theorem reserve (h : s.Sound settings log n) {t : τ} {r : Replacement} {stale : List String}
    (ht : s.stage t = .reserves r stale) :
    (s.reserve settings t r stale).1.Sound settings (log ++ (s.reserve settings t r stale).2)
      (n + r.drafts.length) := by
  have hadvanced := h.advance t r.drafts.length
  have hwritten : written (log ++ [.reserved t (.int n) r.drafts.length]) = written log := by
    rw [written_append]
    exact List.append_nil _
  have hplan := hadvanced.intends_plan ht (Nat.le_refl (n + r.drafts.length)) (by
    rw [hwritten]
    exact h.used)
  rw [h.reserve_eq, List.append_cons]
  refine silent (hadvanced.setStage ?_ ?_) (written_events t _) (reservations_events t _)
  · intro r' hr'
    rw [remaining_after, call?_after hr']
    exact hplan
  · intro t' _ key hkey hother
    rw [remaining_after] at hkey
    obtain ⟨id, hid, rfl⟩ := setKey_plan hkey
    -- What others mean to set has identifiers from before the reservation.
    obtain ⟨-, id', hid', heq⟩ := h.setKey (t := t') hother
    rw [functionKey_inj.mp heq] at hid
    exact absurd hid' (Nat.not_lt.mpr hid)

theorem commit_step (h : s.Sound settings log n) {t : τ} {r : Replacement}
    {records : List FunctionRecord} {batch : List Write} {rest : List (List Write)}
    (ht : s.stage t = .commits r records batch rest) :
    (s.commit t r records batch rest).1.Sound settings
      (log ++ (s.commit t r records batch rest).2) n := by
  have hcall : (s.stage t).call? = some r := by
    rw [ht]
    rfl
  have hremaining : (s.stage t).remaining settings = batch ++ rest.flatten := by
    rw [ht]
    rfl
  have hintends := h.intends t r hcall
  rw [hremaining] at hintends
  -- First the call drops the batch from its intentions, then the batch is committed.
  have hdropped : (s.setStage t (.after r records rest)).Sound settings log n := by
    refine h.setStage_of_sublist hcall (fun _ => call?_after) ?_
    rw [remaining_after, hremaining]
    exact List.sublist_append_right _ _
  have hcommitted := hdropped.commit t (hintends.sublist (List.sublist_append_left _ _)) (by
    intro t' key hkey
    by_cases ht' : t' = t
    · subst ht'
      rw [setStage_self, remaining_after]
      have hnodup := hintends.nodup
      rw [Store.setKeys_append] at hnodup
      exact fun hkey' => List.disjoint_of_nodup_append hnodup hkey hkey'
    · rw [setStage_of_ne s ht']
      refine h.apart t t' (Ne.symm ht') key ?_
      rw [hremaining, Store.setKeys_append]
      exact List.mem_append_left _ hkey)
  have hsilent := hcommitted.silent (written_events t (.after r records rest))
    (reservations_events t _)
  rwa [List.append_assoc] at hsilent

/-- Every step of every call keeps the calls out of each other's way. -/
theorem step (h : s.Sound settings log n) {s' : State τ} {t : τ} {step : Step}
    {seen : List (Event τ)} (hstep : s.step settings t step = some (s', seen)) :
    ∃ n', s'.Sound settings (log ++ seen) n' := by
  rcases step_cases hstep with ⟨r, -, ht, heq⟩ | ⟨r, -, ht, heq⟩ | ⟨r, stale, -, ht, heq⟩ |
    ⟨r, records, batch, rest, -, ht, heq⟩ | ⟨r, -, hcall, heq⟩
  · obtain ⟨rfl, rfl⟩ := Prod.mk.inj heq
    refine ⟨n, silent (h.setStage ?_ ?_) (written_events t _) (reservations_events t _)⟩
    · exact fun _ _ => Intends.nil
    · exact fun _ _ key hkey => absurd hkey List.not_mem_nil
  · obtain ⟨rfl, rfl⟩ := Prod.mk.inj heq
    exact ⟨n, h.query r⟩
  · obtain ⟨rfl, rfl⟩ := Prod.mk.inj heq
    exact ⟨_, h.reserve ht⟩
  · obtain ⟨rfl, rfl⟩ := Prod.mk.inj heq
    exact ⟨n, h.commit_step ht⟩
  · obtain ⟨rfl, rfl⟩ := Prod.mk.inj heq
    refine ⟨n, silent (h.setStage_of_sublist hcall ?_ ?_) (written_events t _)
      (reservations_events t _)⟩
    · exact fun _ hr' => absurd hr' (by simp [Stage.call?])
    · exact List.nil_sublist _

end Sound

theorem sound_run {settings : Settings} {store : Store} {s : State τ} {steps : List (τ × Step)}
    {log : List (Event τ)}
    (hfunctions : ∀ key, key.collection = functions settings → store.get? key = none)
    (hcounter : store.get? (counterKey settings) = none)
    (hrun : ({ store } : State τ).run settings steps = some (s, log)) :
    ∃ n, s.Sound settings log n := by
  refine run_induction (P := fun s log => ∃ n, Sound settings s log n) ?_ []
    ⟨0, .start hfunctions hcounter⟩ hrun
  rintro s log t step s' seen ⟨n, hs⟩ hstep
  exact hs.step hstep

end State
end SignatureSearch.Database.SharedStore
