/-
# `Proofs.Database.Isolation` — calls for one package do not disturb another

A step of a call for a package leaves the documents of all other packages as
they are (`Sound.agree_step`).  If no two calls for a package are under way at
once, a call sees to it by itself that its functions will be all that there is:

    reserves   it has found every document of the package
    commits    its remaining batches leave exactly the new functions
    returned   exactly the new functions are there

(`Stage.Foresees`).  Its own steps keep this, and the other ones do not touch
what it is about.  So what the last call returned is there until the next one
begins (`isolated_run`).
-/
import SignatureSearch.Proofs.Database.Freshness
import SignatureSearch.Proofs.Database.Ownership

namespace SignatureSearch.Database.SharedStore

open Store (Write)

variable {τ : Type}

/-! ## What is known of a package -/

/-- What is known after an event of what the last call for a package returned. -/
def Event.update (packageId : String) (known : Option (Replacement × List FunctionRecord)) :
    Event τ → Option (Replacement × List FunctionRecord)
  | .began _ r => if r.packageId = packageId then none else known
  | .returned _ r records => if r.packageId = packageId then some (r, records) else known
  | _ => known

/-- What the last call for a package returned, unless another one has begun since. -/
def lastResult? (packageId : String) (log : List (Event τ)) :
    Option (Replacement × List FunctionRecord) :=
  log.foldl (Event.update packageId) none

/-- A call for a package is under way. -/
def Stage.WorksFor (packageId : String) (stage : Stage) : Prop :=
  ∃ r ∈ stage.call?, r.packageId = packageId

instance (packageId : String) (stage : Stage) : Decidable (stage.WorksFor packageId) :=
  inferInstanceAs (Decidable (∃ r ∈ stage.call?, r.packageId = packageId))

/-- What a call was asked to do, also after its end. -/
def Stage.request? : Stage → Option Replacement
  | .idle => none
  | .queries r | .reserves r _ | .commits r _ _ _ | .returned r _ | .failed r => some r

theorem request?_of_call? {stage : Stage} {r : Replacement} (h : stage.call? = some r) :
    stage.request? = some r := by
  cases stage with
  | queries r' => exact h
  | reserves r' stale => exact h
  | commits r' records batch rest => exact h
  | _ => exact absurd h (by simp [Stage.call?])

theorem request?_after (r : Replacement) (records : List FunctionRecord)
    (pending : List (List Write)) : (Stage.after r records pending).request? = some r := by
  cases pending <;> rfl

theorem lastResult?_events {packageId : String} {t : τ} {stage : Stage} {r : Replacement}
    (hr : stage.request? = some r) (hne : r.packageId ≠ packageId)
    (known : Option (Replacement × List FunctionRecord)) :
    (stage.events t).foldl (Event.update packageId) known = known := by
  cases stage with
  | queries r' =>
      obtain rfl := Option.some.inj hr
      exact if_neg hne
  | returned r' records =>
      obtain rfl := Option.some.inj hr
      exact if_neg hne
  | _ => rfl

/-! ## What a call foresees -/

/-- What a call for a package relies on, if no other call for it is under way. -/
def Stage.Foresees (settings : Settings) (store : Store) : Stage → Prop
  | .reserves r stale => ∀ key fields, store.get? key = some fields →
      IsOf settings r.packageId key fields → key.id ∈ stale
  | .commits r records batch rest => (∃ first, records = numbered first r.drafts) ∧
      Holds settings (store.commit (batch ++ rest.flatten)) r.packageId records
  | .returned r records => (∃ first, records = numbered first r.drafts) ∧
      Holds settings store r.packageId records
  | _ => True

theorem foresees_after {settings : Settings} {store : Store} {r : Replacement}
    {records : List FunctionRecord} {pending : List (List Write)} :
    (Stage.after r records pending).Foresees settings store ↔
      (∃ first, records = numbered first r.drafts) ∧
        Holds settings (store.commit pending.flatten) r.packageId records := by
  cases pending <;> exact Iff.rfl

theorem Stage.Foresees.congr {settings : Settings} {store store' : Store} {stage : Stage}
    {r : Replacement} (h : stage.Foresees settings store) (hr : stage.request? = some r)
    (hagree : Agree settings r.packageId store store') : stage.Foresees settings store' := by
  cases stage with
  | reserves r' stale =>
      obtain rfl := Option.some.inj hr
      exact fun key fields hfields hof => h key fields ((hagree key fields hof).mpr hfields) hof
  | commits r' records batch rest =>
      obtain rfl := Option.some.inj hr
      exact ⟨h.1, (hagree.commit (batch ++ rest.flatten)).holds_iff.mp h.2⟩
  | returned r' records =>
      obtain rfl := Option.some.inj hr
      exact ⟨h.1, hagree.holds_iff.mp h.2⟩
  | _ => exact trivial

/-- A call that has found all documents of its package foresees what its batches do. -/
theorem foresees_plan {settings : Settings} {store : Store} {r : Replacement} {stale : List String}
    (hstale : ∀ key fields, store.get? key = some fields → IsOf settings r.packageId key fields →
      key.id ∈ stale) (first : Nat) :
    (Stage.after r (numbered first r.drafts)
      (r.plan settings stale (numbered first r.drafts))).Foresees settings store := by
  rw [foresees_after, flatten_plan]
  refine ⟨⟨first, rfl⟩, holds_replaced hstale ?_ (nodup_numbered first r.drafts)⟩
  exact fun record => packageId_of_mem_numbered r.owned

namespace State

variable [DecidableEq τ]

/-! ## Steps -/

/-- At most one call for a package is under way. -/
def Alone (s : State τ) (packageId : String) : Prop :=
  ∀ t t', (s.stage t).WorksFor packageId → (s.stage t').WorksFor packageId → t = t'

/-- No two calls for a package are ever under way at once. -/
def Serial (settings : Settings) (s : State τ) (packageId : String) (steps : List (τ × Step)) :
    Prop :=
  ∀ before ∈ steps.inits, ∀ result ∈ s.run settings before, result.1.Alone packageId

theorem Serial.alone {settings : Settings} {s : State τ} {packageId : String}
    {steps : List (τ × Step)} (h : s.Serial settings packageId steps) : s.Alone packageId :=
  h [] (by simp) (s, []) rfl

theorem Serial.tail {settings : Settings} {s s' : State τ} {packageId : String} {t : τ}
    {step : Step} {seen : List (Event τ)} {rest : List (τ × Step)}
    (h : s.Serial settings packageId ((t, step) :: rest))
    (hstep : s.step settings t step = some (s', seen)) : s'.Serial settings packageId rest := by
  rintro before hbefore ⟨last, log⟩ hrun
  have hlonger : (t, step) :: before ∈ ((t, step) :: rest).inits :=
    (List.mem_inits _ _).mpr ((List.prefix_cons_inj _).mpr ((List.mem_inits _ _).mp hbefore))
  refine h _ hlonger (last, seen ++ log) ?_
  rw [run, hstep, Option.bind_some]
  dsimp only
  rw [Option.mem_def.mp hrun]
  rfl

namespace Sound

variable {settings : Settings} {s s' : State τ} {log seen : List (Event τ)} {n : Nat} {t : τ}
  {step : Step}

omit [DecidableEq τ] in
theorem wellNumbered (h : s.Sound settings log n) : WellNumbered settings s.store n where
  counts := h.counts
  documents key fields hkey hfields := by
    obtain ⟨hused, r, hr, hrecord⟩ := h.documents key fields hkey hfields
    obtain ⟨id, hid, hkey'⟩ := h.used key hused
    rw [hr, functionKey_inj] at hkey'
    exact ⟨r, hkey' ▸ hid, hr, hrecord⟩

omit [DecidableEq τ] in
theorem get?_of_notMem_written (h : s.Sound settings log n) {key : DocumentKey}
    (hkey : key.collection = functions settings) (hunused : key ∉ written log) :
    s.store.get? key = none := by
  cases hfields : s.store.get? key with
  | none => rfl
  | some fields => exact absurd (h.documents key fields hkey hfields).1 hunused

/-- What a step does to the stages, and what is seen of it: a call begins, or one that is under way
goes on or ends. -/
theorem step_stage (h : s.Sound settings log n) (hstep : s.step settings t step = some (s', seen)) :
    (∀ t' ≠ t, s'.stage t' = s.stage t') ∧
    (∀ packageId known, seen.foldl (Event.update packageId) known =
      ((s'.stage t).events t).foldl (Event.update packageId) known) ∧
    ((∃ r, s'.stage t = .queries r ∧ (s.stage t).call? = none) ∨
      ∃ r, (s.stage t).call? = some r ∧ (s'.stage t).request? = some r ∧
        ∀ r', s'.stage t ≠ .queries r') := by
  rcases step_cases hstep with ⟨r, -, ht, heq⟩ | ⟨r, -, ht, heq⟩ | ⟨r, stale, -, ht, heq⟩ |
    ⟨r, records, batch, rest, -, ht, heq⟩ | ⟨r, -, hcall, heq⟩
  · obtain ⟨rfl, rfl⟩ := Prod.mk.inj heq
    rw [setStage_self, ht]
    exact ⟨fun t' ht' => setStage_of_ne s ht' _, fun _ _ => rfl, Or.inl ⟨r, rfl, rfl⟩⟩
  · obtain ⟨rfl, rfl⟩ := Prod.mk.inj heq
    refine ⟨fun t' ht' => setStage_of_ne s ht' _, fun _ _ => ?_, Or.inr ⟨r, by rw [ht]; rfl, ?_⟩⟩
    · rw [setStage_self]
    · rw [setStage_self]
      split
      · refine ⟨request?_after _ _ _, fun r' => ?_⟩
        cases r.plan settings _ [] <;> exact nofun
      · exact ⟨rfl, nofun⟩
  · rw [h.reserve_eq] at heq
    obtain ⟨rfl, rfl⟩ := Prod.mk.inj heq
    rw [setStage_self, ht]
    refine ⟨fun t' ht' => setStage_of_ne _ ht' _, fun _ _ => rfl, Or.inr ⟨r, rfl, ?_⟩⟩
    refine ⟨request?_after _ _ _, fun r' => ?_⟩
    cases r.plan settings stale (numbered n r.drafts) <;> exact nofun
  · obtain ⟨rfl, rfl⟩ := Prod.mk.inj heq
    refine ⟨fun t' ht' => setStage_of_ne _ ht' _, fun _ _ => ?_, Or.inr ⟨r, by rw [ht]; rfl, ?_⟩⟩
    · rw [setStage_self]
      rfl
    · rw [setStage_self]
      refine ⟨request?_after _ _ _, fun r' => ?_⟩
      cases rest <;> exact nofun
  · obtain ⟨rfl, rfl⟩ := Prod.mk.inj heq
    rw [setStage_self]
    exact ⟨fun t' ht' => setStage_of_ne s ht' _, fun _ _ => rfl, Or.inr ⟨r, hcall, rfl, nofun⟩⟩

/-- What a step does to the functions: nothing, or a call commits what it intended. -/
theorem step_store (h : s.Sound settings log n)
    (hstep : s.step settings t step = some (s', seen)) :
    (∀ key, key.collection = functions settings → s'.store.get? key = s.store.get? key) ∨
    ∃ r batch, (s.stage t).call? = some r ∧ s'.store = s.store.commit batch ∧
      Intends settings s.store (written log) n r.packageId batch := by
  rcases step_cases hstep with ⟨r, -, ht, heq⟩ | ⟨r, -, ht, heq⟩ | ⟨r, stale, -, ht, heq⟩ |
    ⟨r, records, batch, rest, -, ht, heq⟩ | ⟨r, -, hcall, heq⟩
  · obtain ⟨rfl, rfl⟩ := Prod.mk.inj heq
    exact Or.inl fun _ _ => rfl
  · obtain ⟨rfl, rfl⟩ := Prod.mk.inj heq
    exact Or.inl fun _ _ => rfl
  · rw [h.reserve_eq] at heq
    obtain ⟨rfl, rfl⟩ := Prod.mk.inj heq
    exact Or.inl fun key hkey => s.store.get?_put_of_ne (ne_counterKey hkey) _
  · obtain ⟨rfl, rfl⟩ := Prod.mk.inj heq
    have hcall : (s.stage t).call? = some r := by
      rw [ht]
      rfl
    have hintends := h.intends t r hcall
    rw [ht] at hintends
    exact Or.inr ⟨r, batch, hcall, rfl, hintends.sublist (List.sublist_append_left _ _)⟩
  · obtain ⟨rfl, rfl⟩ := Prod.mk.inj heq
    exact Or.inl fun _ _ => rfl

/-- A step leaves the documents of a package alone, unless it is one of a call for it. -/
theorem agree_step (h : s.Sound settings log n) (hstep : s.step settings t step = some (s', seen))
    {packageId : String} (hother : ¬ (s.stage t).WorksFor packageId) :
    Agree settings packageId s.store s'.store := by
  rcases h.step_store hstep with hsame | ⟨r, batch, hcall, hstore, hintends⟩
  · intro key fields hof
    rw [hsame key hof.1]
  · rw [hstore]
    refine .of_commit ?_ ?_
    · intro key fields hset
      obtain ⟨hunused, record, -, hpackage, rfl, rfl⟩ := hintends.sets key fields hset
      refine ⟨h.get?_of_notMem_written rfl hunused, fun hof => ?_⟩
      rw [← hof.unique (isOf_toFields settings record)] at hpackage
      exact hother ⟨r, hcall, hpackage.symm⟩
    · intro key fields hdelete hfields hof
      have hpackage := (hintends.deletes key hdelete).2 fields hfields
      exact hother ⟨r, hcall, IsOf.unique ⟨hof.1, hpackage⟩ hof⟩

/-- A step takes the document of a function away, or leaves it as it is. -/
theorem get?_step (h : s.Sound settings log n) (hstep : s.step settings t step = some (s', seen))
    {key : DocumentKey} {fields : Fields} (hkey : key.collection = functions settings)
    (hfields : s.store.get? key = some fields) :
    s'.store.get? key = some fields ∨ s'.store.get? key = none := by
  rcases h.step_store hstep with hsame | ⟨r, batch, -, hstore, hintends⟩
  · exact Or.inl ((hsame key hkey).trans hfields)
  · cases hfields' : s'.store.get? key with
    | none => exact Or.inr rfl
    | some fields' =>
        rw [hstore] at hfields'
        rcases Store.get?_commit_eq_some hfields' with hset | ⟨hold, -⟩
        · have hunused := (hintends.sets key fields' hset).1
          exact absurd (h.documents key fields hkey hfields).1 hunused
        · exact Or.inl (hold.symm.trans hfields)

theorem foresees_step (h : s.Sound settings log n)
    (hstep : s.step settings t step = some (s', seen)) {r : Replacement}
    (hcall : (s.stage t).call? = some r) (hforesees : (s.stage t).Foresees settings s.store) :
    (s'.stage t).Foresees settings s'.store := by
  rcases step_cases hstep with ⟨r', -, ht, heq⟩ | ⟨r', -, ht, heq⟩ | ⟨r', stale, -, ht, heq⟩ |
    ⟨r', records, batch, rest, -, ht, heq⟩ | ⟨r', -, -, heq⟩
  · exact absurd hcall (by simp [ht, Stage.call?])
  · obtain ⟨rfl, rfl⟩ := Prod.mk.inj heq
    rw [setStage_self]
    have hstale : ∀ key fields, s.store.get? key = some fields →
        IsOf settings r'.packageId key fields → key.id ∈ (s.store.documentsWith
          (functions settings) "packageId" (.str r'.packageId)).map (·.1) := by
      rintro ⟨collection, id⟩ fields hfields ⟨hcollection, hpackage⟩
      obtain rfl : collection = functions settings := hcollection
      exact List.mem_map.mpr ⟨(id, fields), Store.mem_documentsWith.mpr ⟨hfields, hpackage⟩, rfl⟩
    split
    · next hempty =>
        have hnumbered : numbered 0 r'.drafts = [] := by
          rw [List.isEmpty_iff.mp hempty]
          rfl
        have hplan := foresees_plan hstale 0
        rwa [hnumbered] at hplan
    · exact hstale
  · rw [ht] at hforesees
    rw [h.reserve_eq] at heq
    obtain ⟨rfl, rfl⟩ := Prod.mk.inj heq
    rw [setStage_self]
    refine (foresees_plan hforesees n).congr (request?_after _ _ _) ?_
    exact .of_put (functions_ne_counters settings) r'.packageId s.store _
  · rw [ht] at hforesees
    obtain ⟨rfl, rfl⟩ := Prod.mk.inj heq
    rw [setStage_self, foresees_after]
    refine ⟨hforesees.1, ?_⟩
    have hholds := hforesees.2
    rwa [Store.commit_append] at hholds
  · obtain ⟨rfl, rfl⟩ := Prod.mk.inj heq
    rw [setStage_self]
    exact trivial

end Sound

/-! ## Runs -/

/-- The call for a package that is under way foresees what it does, and what the last one returned is
there. -/
structure Isolated (settings : Settings) (packageId : String) (s : State τ)
    (log : List (Event τ)) : Prop where
  foresees : ∀ t r, (s.stage t).call? = some r → r.packageId = packageId →
    (s.stage t).Foresees settings s.store
  settled : ∀ r records, lastResult? packageId log = some (r, records) →
    (∃ first, records = numbered first r.drafts) ∧ Holds settings s.store packageId records ∧
      ∀ t, ¬ (s.stage t).WorksFor packageId

namespace Isolated

variable {settings : Settings} {packageId : String} {s s' : State τ} {log seen : List (Event τ)}
  {n : Nat} {t : τ} {step : Step}

omit [DecidableEq τ] in
theorem start (settings : Settings) (packageId : String) (store : Store) :
    Isolated settings packageId ({ store } : State τ) [] where
  foresees t r hcall := absurd hcall (by simp [Stage.call?])
  settled r records hresult := absurd hresult (Option.some_ne_none _).symm

theorem step_of_other (h : s.Isolated settings packageId log) (hsound : s.Sound settings log n)
    (hstep : s.step settings t step = some (s', seen))
    (hother : ¬ (s.stage t).WorksFor packageId) : s'.Isolated settings packageId (log ++ seen) := by
  obtain ⟨hrest, hseen, hstage⟩ := hsound.step_stage hstep
  have hagree := hsound.agree_step hstep hother
  refine ⟨?_, ?_⟩
  · intro t' r hcall hpackage
    by_cases ht : t' = t
    · subst ht
      rcases hstage with ⟨r', hqueries, -⟩ | ⟨r', hcall', hrequest, -⟩
      · rw [hqueries]
        exact trivial
      · obtain rfl := Option.some.inj (hrequest.symm.trans (request?_of_call? hcall))
        exact absurd ⟨r', hcall', hpackage⟩ hother
    · rw [hrest t' ht] at hcall ⊢
      refine (h.foresees t' r hcall hpackage).congr (request?_of_call? hcall) ?_
      rwa [hpackage]
  · intro r records hresult
    rw [lastResult?, List.foldl_append, hseen] at hresult
    have hrequest : ∃ r', (s'.stage t).request? = some r' ∧ r'.packageId ≠ packageId := by
      rcases hstage with ⟨r', hqueries, -⟩ | ⟨r', hcall, hrequest, -⟩
      · rw [hqueries] at hresult ⊢
        refine ⟨r', rfl, fun heq => ?_⟩
        -- A call for the package that begins makes the last result void.
        exact absurd hresult (by simp [Stage.events, Event.update, heq])
      · exact ⟨r', hrequest, fun hpackage => hother ⟨r', hcall, hpackage⟩⟩
    obtain ⟨r', hrequest, hne⟩ := hrequest
    rw [lastResult?_events hrequest hne] at hresult
    obtain ⟨hnumbered, hholds, hnone⟩ := h.settled r records hresult
    refine ⟨hnumbered, hagree.holds_iff.mp hholds, fun t' hworks => ?_⟩
    by_cases ht : t' = t
    · subst ht
      obtain ⟨r₁, hcall, hpackage⟩ := hworks
      rw [← Option.some.inj (hrequest.symm.trans (request?_of_call? hcall))] at hpackage
      exact hne hpackage
    · rw [hrest t' ht] at hworks
      exact hnone t' hworks

theorem step_of_own (h : s.Isolated settings packageId log) (hsound : s.Sound settings log n)
    (hstep : s.step settings t step = some (s', seen)) (halone : s.Alone packageId)
    {r : Replacement} (hcall : (s.stage t).call? = some r) (hpackage : r.packageId = packageId) :
    s'.Isolated settings packageId (log ++ seen) := by
  obtain ⟨hrest, hseen, hstage⟩ := hsound.step_stage hstep
  have hforesees := hsound.foresees_step hstep hcall (h.foresees t r hcall hpackage)
  have hothers : ∀ t' ≠ t, ¬ (s'.stage t').WorksFor packageId := by
    intro t' ht hworks
    rw [hrest t' ht] at hworks
    exact ht (halone t' t hworks ⟨r, hcall, hpackage⟩)
  refine ⟨?_, ?_⟩
  · intro t' r' hcall' hpackage'
    by_cases ht : t' = t
    · subst ht
      exact hforesees
    · exact absurd ⟨r', hcall', hpackage'⟩ (hothers t' ht)
  · intro r' records hresult
    have hunknown : lastResult? packageId log = none := by
      cases hlast : lastResult? packageId log with
      | none => rfl
      | some result =>
          exact absurd ⟨r, hcall, hpackage⟩ ((h.settled result.1 result.2 hlast).2.2 t)
    rw [lastResult?, List.foldl_append, hseen, ← lastResult?, hunknown] at hresult
    rcases hstage with ⟨r₁, -, hidle⟩ | ⟨r₁, hcall', hrequest, -⟩
    · exact absurd (hidle.symm.trans hcall) (Option.some_ne_none _).symm
    · obtain rfl := Option.some.inj (hcall.symm.trans hcall')
      -- Only a call that has returned gives a result.
      cases hlast : s'.stage t with
      | returned r₂ records' =>
          rw [hlast] at hresult hforesees hrequest
          obtain rfl := Option.some.inj hrequest
          obtain ⟨rfl, rfl⟩ : r₂ = r' ∧ records' = records := by
            simpa [Stage.events, Event.update, hpackage] using hresult
          refine ⟨hforesees.1, hpackage ▸ hforesees.2, fun t' hworks => ?_⟩
          by_cases ht : t' = t
          · subst ht
            rw [hlast] at hworks
            exact absurd hworks (by simp [Stage.WorksFor, Stage.call?])
          · exact hothers t' ht hworks
      | queries r₂ =>
          rw [hlast] at hresult
          simp [Stage.events, Event.update] at hresult
      | _ =>
          rw [hlast] at hresult
          exact absurd hresult (Option.some_ne_none _).symm

end Isolated

/-- As long as no two calls for a package are under way at once, they are isolated. -/
theorem isolated_run {settings : Settings} {packageId : String} {s s' : State τ}
    {steps : List (τ × Step)} {log seen : List (Event τ)} {n : Nat}
    (hsound : s.Sound settings log n) (h : s.Isolated settings packageId log)
    (hserial : s.Serial settings packageId steps)
    (hrun : s.run settings steps = some (s', seen)) :
    s'.Isolated settings packageId (log ++ seen) := by
  induction steps generalizing s log seen n with
  | nil =>
      obtain ⟨rfl, rfl⟩ := Prod.mk.inj (Option.some.inj hrun)
      rwa [List.append_nil]
  | cons first rest ih =>
      obtain ⟨t, step⟩ := first
      obtain ⟨⟨next, seen₁⟩, hstep, hrest⟩ := Option.bind_eq_some_iff.mp hrun
      obtain ⟨⟨last, seen₂⟩, hrun', heq⟩ := Option.map_eq_some_iff.mp hrest
      obtain ⟨rfl, rfl⟩ := Prod.mk.inj heq
      obtain ⟨n', hsound'⟩ := hsound.step hstep
      rw [← List.append_assoc]
      refine ih hsound' ?_ (hserial.tail hstep) hrun'
      by_cases hown : (s.stage t).WorksFor packageId
      · obtain ⟨r, hcall, hpackage⟩ := hown
        exact h.step_of_own hsound hstep hserial.alone hcall hpackage
      · exact h.step_of_other hsound hstep hown

/-- Calls that share a store, in which there were no functions, never get in each other's way.  At
any time every function is under the text of its own identifier and below the counter; no two
reservations gave out the same identifier; no key was set twice, or after it was there before; and a
function only disappears by a step of a call for its own package.  As long as no two calls for a
package overlap, the last one that returned has left exactly its functions there. -/
theorem run_isolation {settings : Settings} {store : Store} {early late : List (τ × Step)}
    {s₀ s : State τ} {log₀ log : List (Event τ)}
    (hfunctions : ∀ key, key.collection = functions settings → store.get? key = none)
    (hcounter : store.get? (counterKey settings) = none)
    (hearly : ({ store } : State τ).run settings early = some (s₀, log₀))
    (hlate : s₀.run settings late = some (s, log)) :
    (∃ n, WellNumbered settings s.store n) ∧
    (∃ ranges : List (Nat × Nat),
      reservations (log₀ ++ log) = ranges.map (fun range => (.int range.1, range.2)) ∧
      ranges.Pairwise fun a b => List.Disjoint (List.range' a.1 a.2) (List.range' b.1 b.2)) ∧
    (written (log₀ ++ log)).Nodup ∧ (∀ key ∈ written log, s₀.store.get? key = none) ∧
    (∀ t step s' seen, s.step settings t step = some (s', seen) → ∀ r : FunctionRecord,
      s.store.get? (functionKey settings r.id) = some r.toFields →
        s'.store.get? (functionKey settings r.id) = some r.toFields ∨
        s'.store.get? (functionKey settings r.id) = none ∧
          (s.stage t).WorksFor r.packageId) ∧
    (∀ packageId, ({ store } : State τ).Serial settings packageId (early ++ late) →
      ∀ r records, lastResult? packageId (log₀ ++ log) = some (r, records) →
        (∃ first, records = numbered first r.drafts) ∧
          Holds settings s.store packageId records) := by
  obtain ⟨n₀, hsound₀⟩ := sound_run hfunctions hcounter hearly
  have hrun := run_append hearly hlate
  obtain ⟨n, hsound⟩ := sound_run hfunctions hcounter hrun
  refine ⟨⟨n, hsound.wellNumbered⟩, ?_, hsound.nodup, ?_, ?_, ?_⟩
  · obtain ⟨ranges, hranges, -, hpairwise⟩ := hsound.reserved
    refine ⟨ranges, hranges, hpairwise.imp fun hle id ha hb => ?_⟩
    have habove := List.mem_range'_1.mp ha
    have hbelow := List.mem_range'_1.mp hb
    omega
  · intro key hkey
    have hnodup := hsound.nodup
    rw [written_append] at hnodup
    have hunused : key ∉ written log₀ :=
      fun hkey' => List.disjoint_of_nodup_append hnodup hkey' hkey
    obtain ⟨id, -, hid⟩ := hsound.used key (by
      rw [written_append]
      exact List.mem_append_right _ hkey)
    exact hsound₀.get?_of_notMem_written (congrArg DocumentKey.collection hid) hunused
  · intro t step s' seen hstep r hr
    by_cases hworks : (s.stage t).WorksFor r.packageId
    · refine (hsound.get?_step hstep rfl hr).imp_right fun hnone => ⟨hnone, hworks⟩
    · exact Or.inl ((hsound.agree_step hstep hworks _ _ (isOf_toFields settings r)).mp hr)
  · intro packageId hserial r records hresult
    have hsound' := Sound.start (τ := τ) hfunctions hcounter
    have hisolated := isolated_run hsound' (.start settings packageId store) hserial hrun
    obtain ⟨hnumbered, hholds, -⟩ := hisolated.settled r records hresult
    exact ⟨hnumbered, hholds⟩

/-- A call that replaces the functions of one package, and one for another package that reserves an
identifier first and fails then. -/
theorem run_isolation_sample :
    let draft (packageId name : String) : FunctionDraft := { packageId, name, signature := "Int" }
    let call : Replacement := ⟨"a", [draft "a" "f", draft "a" "g"], 1, by decide, by decide⟩
    let other : Replacement := ⟨"b", [draft "b" "f"], 1, by decide, by decide⟩
    ∃ (s₀ s : State Bool) (log₀ log : List (Event Bool)),
      ({ store := .empty } : State Bool).run {}
        [(true, .begin call), (false, .begin other), (true, .proceed), (false, .proceed),
         (false, .proceed)] = some (s₀, log₀) ∧
      s₀.run {} [(true, .proceed), (true, .proceed), (false, .fail), (true, .proceed)] =
        some (s, log) ∧
      (∀ key ∈ written log, s₀.store.get? key = none) ∧
      Holds {} s.store "a" [(draft "a" "f").withId 1, (draft "a" "g").withId 2] := by
  intro draft call other
  let early : List (Bool × Step) :=
    [(true, .begin call), (false, .begin other), (true, .proceed), (false, .proceed),
     (false, .proceed)]
  let late : List (Bool × Step) :=
    [(true, .proceed), (true, .proceed), (false, .fail), (true, .proceed)]
  have hresult : ((({ store := .empty } : State Bool).run {} early).bind fun x =>
      (x.1.run {} late).map fun y => lastResult? "a" (x.2 ++ y.2)) =
        some (some (call, [(draft "a" "f").withId 1, (draft "a" "g").withId 2])) := by
    cbv
  obtain ⟨⟨s₀, log₀⟩, hearly, hresult⟩ := Option.bind_eq_some_iff.mp hresult
  obtain ⟨⟨s, log⟩, hlate, hresult⟩ := Option.map_eq_some_iff.mp hresult
  -- Only one of the two calls is for the package.
  have hothers : ((early ++ late).inits.all fun before =>
      (({ store := .empty } : State Bool).run {} before).all fun result =>
        decide (¬ (result.1.stage false).WorksFor "a")) = true := by
    cbv
  have hserial : ({ store := .empty } : State Bool).Serial {} "a" (early ++ late) := by
    intro before hbefore result hrun t t' hworks hworks'
    have hother := List.all_eq_true.mp hothers before hbefore
    rw [Option.mem_def.mp hrun] at hother
    have hfalse := of_decide_eq_true hother
    cases t <;> cases t'
    · exact absurd hworks hfalse
    · exact absurd hworks hfalse
    · exact absurd hworks' hfalse
    · rfl
  obtain ⟨-, -, -, hnew, -, hexact⟩ := run_isolation (fun _ _ => rfl) rfl hearly hlate
  exact ⟨s₀, s, log₀, log, hearly, hlate, hnew, (hexact "a" hserial _ _ hresult).2⟩

end State
end SignatureSearch.Database.SharedStore
