/-
# `Proofs.Database.Replacement` — a replacement is exact, or nothing is lost

Whatever happened before, the functions of a store have their own identifiers
below its counter (`Reachable.wellNumbered`).  A replacement puts functions in
the place of others, at any time of its course (`Exchanged`):

    query, reservation    nothing has changed
    writes                the first batches of new functions are there as well
    deletes               all new functions are there, and the first batches of
                          what was found are gone
    return                all new functions are there instead of what was found

So a call that returns is exact (`replace_exact`), and one that fails leaves
all old functions there or all new ones (`replace_failure`).
-/
import SignatureSearch.Proofs.Database.Ownership
import SignatureSearch.Proofs.Database.Steps

namespace SignatureSearch.Database

open Store (Write Failure Call Client Spares perform queryWith commitBatch)
open SharedStore (Replacement)

variable {settings : Settings} {store after : Store} {n : Nat} {packageId : String}
  {drafts : List FunctionDraft} {records : List FunctionRecord} {ids : List String}

/-! ## Functions in the place of others -/

/-- The store `after` has the functions `records` in the place of those with the identifiers `ids`.
Nothing else is different, but perhaps the counter. -/
def Exchanged (settings : Settings) (store : Store) (records : List FunctionRecord)
    (ids : List String) (after : Store) : Prop :=
  ∀ key ≠ counterKey settings, ∀ fields, after.get? key = some fields ↔
    (∃ r ∈ records, key = functionKey settings r.id ∧ fields = r.toFields) ∨
    store.get? key = some fields ∧ ∀ id ∈ ids, key ≠ ⟨functions settings, id⟩

def idsOf (settings : Settings) (store : Store) (packageId : String) : List String :=
  (store.documentsWith (functions settings) "packageId" (.str packageId)).map (·.1)

theorem mem_idsOf {id : String} :
    id ∈ idsOf settings store packageId ↔ ∃ fields,
      store.get? ⟨functions settings, id⟩ = some fields ∧
        Json.field? fields "packageId" = some (.str packageId) := by
  rw [idsOf, List.mem_map]
  constructor
  · rintro ⟨⟨id, fields⟩, hfound, rfl⟩
    exact ⟨fields, Store.mem_documentsWith.mp hfound⟩
  · rintro ⟨fields, hfields⟩
    exact ⟨(id, fields), Store.mem_documentsWith.mpr hfields, rfl⟩

namespace Exchanged

theorem of_same (h : ∀ key ≠ counterKey settings, after.get? key = store.get? key) :
    Exchanged settings store [] [] after := by
  intro key hkey fields
  rw [h key hkey]
  simp

theorem new (h : Exchanged settings store records ids after) {r : FunctionRecord}
    (hr : r ∈ records) : after.get? (functionKey settings r.id) = some r.toFields :=
  (h _ (ne_counterKey rfl) _).mpr (Or.inl ⟨r, hr, rfl, rfl⟩)

theorem old (h : Exchanged settings store records [] after) {key : DocumentKey}
    (hkey : key ≠ counterKey settings) {fields : Fields} (hfields : store.get? key = some fields) :
    after.get? key = some fields :=
  (h key hkey fields).mpr (Or.inr ⟨hfields, nofun⟩)

theorem get?_of_ne (h : Exchanged settings store records ids after) {key : DocumentKey}
    (hkey : key.collection ≠ functions settings) (hcounter : key ≠ counterKey settings) :
    after.get? key = store.get? key := by
  ext fields
  rw [h key hcounter fields]
  constructor
  · rintro (⟨r, -, rfl, -⟩ | ⟨hfields, -⟩)
    · exact absurd rfl hkey
    · exact hfields
  · intro hfields
    refine Or.inr ⟨hfields, fun id _ heq => ?_⟩
    exact hkey (congrArg DocumentKey.collection heq)

theorem agree (h : Exchanged settings store records ids after)
    (hrecords : ∀ r ∈ records, r.packageId = packageId)
    (hids : ids ⊆ idsOf settings store packageId) {packageId' : String}
    (hne : packageId' ≠ packageId) : Agree settings packageId' store after := by
  intro key fields hof
  rw [h key (ne_counterKey hof.1) fields]
  constructor
  · intro hfields
    refine Or.inr ⟨hfields, fun id hid heq => hne ?_⟩
    obtain ⟨fields', hfields', hpackage⟩ := mem_idsOf.mp (hids hid)
    rw [← heq, hfields] at hfields'
    obtain rfl := Option.some.inj hfields'
    exact hof.unique ⟨hof.1, hpackage⟩
  · rintro (⟨r, hr, rfl, rfl⟩ | ⟨hfields, -⟩)
    · have hpackage := hof.unique (isOf_toFields settings r)
      exact absurd (hpackage.trans (hrecords r hr)) hne
    · exact hfields

/-- When all documents of a package were exchanged, the new ones are left. -/
theorem holds (h : Exchanged settings store records (idsOf settings store packageId) after)
    (hrecords : ∀ r ∈ records, r.packageId = packageId) :
    Holds settings after packageId records := by
  intro key fields
  constructor
  · rintro ⟨hfields, hcollection, hpackage⟩
    rcases (h key (ne_counterKey hcollection) fields).mp hfields with hnew | ⟨hold, hkept⟩
    · exact hnew
    · obtain ⟨collection, id⟩ := key
      obtain rfl : collection = functions settings := hcollection
      exact absurd rfl (hkept id (mem_idsOf.mpr ⟨fields, hold, hpackage⟩))
  · rintro ⟨r, hr, rfl, rfl⟩
    exact ⟨h.new hr, hrecords r hr ▸ isOf_toFields settings r⟩

theorem wellNumbered (h : Exchanged settings store records ids after)
    (hstore : WellNumbered settings store n) {n' : Nat} (hcounts : Counts settings after n')
    (hn : n ≤ n') (hrecords : ∀ r ∈ records, r.id < n') : WellNumbered settings after n' where
  counts := hcounts
  documents key fields hkey hfields := by
    rcases (h key (ne_counterKey hkey) fields).mp hfields with ⟨r, hr, hnew⟩ | ⟨hold, -⟩
    · exact ⟨r, hrecords r hr, hnew⟩
    · obtain ⟨r, hid, hr⟩ := hstore.documents key fields hkey hold
      exact ⟨r, hid.trans_le hn, hr⟩

end Exchanged

/-! ## What a call exchanges -/

section Exchange

variable {client first second last : Client} {found : List (String × Fields)}

theorem WellNumbered.toString_notMem (h : WellNumbered settings store n) {r : FunctionRecord}
    (hr : r ∈ numbered n drafts) : toString r.id ∉ idsOf settings store packageId := by
  intro hid
  obtain ⟨fields, hfields, -⟩ := mem_idsOf.mp hid
  obtain ⟨r', hid', hkey, -⟩ := h.documents ⟨functions settings, toString r.id⟩ fields rfl hfields
  have hsame : functionKey settings r.id = functionKey settings r'.id := hkey
  rw [functionKey_inj] at hsame
  have hge := (mem_numbered hr).1
  omega

theorem WellNumbered.outdated_eq (h : WellNumbered settings store n) (packageId : String)
    (drafts : List FunctionDraft) :
    outdated (idsOf settings store packageId) (numbered n drafts) =
      idsOf settings store packageId := by
  refine List.filter_eq_self.mpr fun id hid => ?_
  simp only [List.contains_eq_mem, Bool.not_eq_eq_eq_not, Bool.not_true, decide_eq_false_iff_not,
    List.mem_map, not_exists, not_and]
  rintro r hr rfl
  exact h.toString_notMem hr hid

/-- Once identifiers were reserved, writing some of the new functions and deleting some of what was
found exchanges them. -/
theorem WellNumbered.exchanged (h : WellNumbered settings store n) {reserved : Store} {m : Nat}
    (hcounts : Counts settings reserved m)
    (hreserved : ∀ key ≠ counterKey settings, reserved.get? key = store.get? key)
    (hrecords : records.Sublist (numbered n drafts))
    (hids : ids ⊆ idsOf settings store packageId)
    (hafter : after = reserved.commit (records.map (setFunction settings) ++
      ids.map (deleteFunction settings))) :
    Exchanged settings store records ids after ∧ Counts settings after m := by
  have hnodup : (records.map (·.id)).Nodup :=
    (nodup_numbered n drafts).sublist (hrecords.map _)
  have hapart : ∀ r ∈ records, toString r.id ∉ ids :=
    fun r hr hid => h.toString_notMem (hrecords.subset hr) (hids hid)
  subst hafter
  refine ⟨?_, hcounts.congr (Store.get?_commit_of_notMem ?_)⟩
  · intro key hkey fields
    rw [get?_exchange hnodup hapart, hreserved key hkey]
    refine or_congr_right (and_congr_right fun hfields => and_iff_right fun r hr heq => ?_)
    obtain ⟨r', hid, hkey', -⟩ := h.documents key fields (heq ▸ rfl) hfields
    rw [heq, functionKey_inj] at hkey'
    have hge := (mem_numbered (hrecords.subset hr)).1
    omega
  · rw [List.map_append, List.mem_append, List.map_map, List.map_map, List.mem_map, List.mem_map]
    rintro (⟨r, -, heq⟩ | ⟨id, -, heq⟩)
    · exact ne_counterKey rfl heq
    · exact ne_counterKey rfl heq

theorem WellNumbered.prepared (h : WellNumbered settings client.store n)
    (hquery : perform (queryWith (functions settings) "packageId" (.str packageId)) client =
      (.ok found, first))
    (hrecord : perform (record settings drafts) first = (.ok records, second)) :
    found.map (·.1) = idsOf settings client.store packageId ∧ records = numbered n drafts ∧
      Counts settings second.store (n + drafts.length) ∧
      ∀ key ≠ counterKey settings, second.store.get? key = client.store.get? key := by
  obtain ⟨rfl, rfl⟩ := queryWith_ok hquery
  have hcounts : Counts settings (client.note (.stream (functions settings))).store n := h.counts
  obtain ⟨hrecords, hreserved, hsame⟩ := record_ok hcounts hrecord
  exact ⟨rfl, hrecords, hreserved, hsame⟩

/-- A call that returns has exchanged what it found for the new functions. -/
theorem WellNumbered.replaced (h : WellNumbered settings client.store n)
    (hdone : perform (replaceFunctions settings packageId drafts) client = (.ok records, last)) :
    records = numbered n drafts ∧
    Exchanged settings client.store records (idsOf settings client.store packageId) last.store ∧
      Counts settings last.store (n + drafts.length) := by
  obtain ⟨found, first, second, hquery, hrecord, hcommit⟩ := replaceFunctions_ok hdone
  obtain ⟨hfound, rfl, hcounts, hsecond⟩ := h.prepared hquery hrecord
  refine ⟨rfl, h.exchanged hcounts hsecond (List.Sublist.refl _) (List.Subset.refl _) ?_⟩
  rw [(commitBatches_ok hcommit).1, flatten_allBatches, hfound, h.outdated_eq]

end Exchange

/-! ## Where a call can fail -/

/-- A step of a call; commits are counted from zero. -/
inductive Point where
  | query
  | reservation
  | write (k : Nat)
  | delete (k : Nat)
deriving DecidableEq, Repr

/-- The steps of a call before some point succeed, and then the step there fails. -/
inductive FailsAt (settings : Settings) (packageId : String) (drafts : List FunctionDraft)
    (client : Client) : Point → Failure → Client → Prop where
  | query {failure : Failure} {last : Client} :
      perform (queryWith (functions settings) "packageId" (.str packageId)) client =
        (.error failure, last) → FailsAt settings packageId drafts client .query failure last
  | reservation {found : List (String × Fields)} {first last : Client} {failure : Failure} :
      perform (queryWith (functions settings) "packageId" (.str packageId)) client =
        (.ok found, first) →
      perform (record settings drafts) first = (.error failure, last) →
      FailsAt settings packageId drafts client .reservation failure last
  | write {found : List (String × Fields)} {records : List FunctionRecord} {k : Nat}
      {batch : List Write} {first second third last : Client} {failure : Failure} :
      perform (queryWith (functions settings) "packageId" (.str packageId)) client =
        (.ok found, first) →
      perform (record settings drafts) first = (.ok records, second) →
      (writeBatches settings records)[k]? = some batch →
      perform (commitBatches ((writeBatches settings records).take k)) second = (.ok (), third) →
      perform (commitBatch batch) third = (.error failure, last) →
      FailsAt settings packageId drafts client (.write k) failure last
  | delete {found : List (String × Fields)} {records : List FunctionRecord} {k : Nat}
      {batch : List Write} {first second third fourth last : Client} {failure : Failure} :
      perform (queryWith (functions settings) "packageId" (.str packageId)) client =
        (.ok found, first) →
      perform (record settings drafts) first = (.ok records, second) →
      perform (commitBatches (writeBatches settings records)) second = (.ok (), third) →
      (deleteBatches settings (found.map (·.1)) records)[k]? = some batch →
      perform (commitBatches ((deleteBatches settings (found.map (·.1)) records).take k)) third =
        (.ok (), fourth) →
      perform (commitBatch batch) fourth = (.error failure, last) →
      FailsAt settings packageId drafts client (.delete k) failure last

/-- What a failure at some point leaves in the store. -/
def Point.Leaves (settings : Settings) (packageId : String) (store : Store)
    (records : List FunctionRecord) (after : Store) : Point → Prop
  | .query | .reservation => Exchanged settings store [] [] after
  | .write k => Exchanged settings store
      ((batches settings.batchSize records).take k).flatten [] after
  | .delete k => Exchanged settings store records
      ((batches settings.batchSize (idsOf settings store packageId)).take k).flatten after

/-- A failure leaves some new functions in the place of some old ones; and none was deleted, or all
new ones are there. -/
theorem Point.Leaves.exchanged {point : Point}
    (h : point.Leaves settings packageId store records after) :
    ∃ written deleted, written ⊆ records ∧ deleted ⊆ idsOf settings store packageId ∧
      (deleted = [] ∨ written = records) ∧ Exchanged settings store written deleted after := by
  cases point with
  | query => exact ⟨[], [], List.nil_subset _, List.nil_subset _, Or.inl rfl, h⟩
  | reservation => exact ⟨[], [], List.nil_subset _, List.nil_subset _, Or.inl rfl, h⟩
  | write k =>
      have hwritten := flatten_take_batches settings.batchSize records k
      exact ⟨_, [], hwritten.subset, List.nil_subset _, Or.inl rfl, h⟩
  | delete k =>
      have hdeleted := flatten_take_batches settings.batchSize (idsOf settings store packageId) k
      exact ⟨_, _, List.Subset.refl _, hdeleted.subset, Or.inr rfl, h⟩

section Failure

variable {client last : Client} {failure : Failure} {point : Point}

theorem replaceFunctions_error_iff :
    perform (replaceFunctions settings packageId drafts) client = (.error failure, last) ↔
      ∃ point, FailsAt settings packageId drafts client point failure last := by
  rw [replaceFunctions_error]
  constructor
  · rintro (hquery | ⟨found, first, hquery, hrecord | ⟨records, second, hrecord, hcommit⟩⟩)
    · exact ⟨.query, .query hquery⟩
    · exact ⟨.reservation, .reservation hquery hrecord⟩
    · rw [allBatches, commitBatches_append, Store.perform_bind_eq_error] at hcommit
      rcases hcommit with hwrite | ⟨_, third, hwrites, hdelete⟩
      · obtain ⟨k, batch, third, hk, htake, hfail⟩ := commitBatches_error.mp hwrite
        exact ⟨.write k, .write hquery hrecord hk htake hfail⟩
      · obtain ⟨k, batch, fourth, hk, htake, hfail⟩ := commitBatches_error.mp hdelete
        exact ⟨.delete k, .delete hquery hrecord hwrites hk htake hfail⟩
  · rintro ⟨point, hfails⟩
    cases hfails with
    | query hquery => exact Or.inl hquery
    | reservation hquery hrecord => exact Or.inr ⟨_, _, hquery, Or.inl hrecord⟩
    | write hquery hrecord hk htake hfail =>
        refine Or.inr ⟨_, _, hquery, Or.inr ⟨_, _, hrecord, ?_⟩⟩
        rw [allBatches, commitBatches_append, Store.perform_bind_eq_error]
        exact Or.inl (commitBatches_error.mpr ⟨_, _, _, hk, htake, hfail⟩)
    | delete hquery hrecord hwrites hk htake hfail =>
        refine Or.inr ⟨_, _, hquery, Or.inr ⟨_, _, hrecord, ?_⟩⟩
        rw [allBatches, commitBatches_append, Store.perform_bind_eq_error]
        exact Or.inr ⟨_, _, hwrites, commitBatches_error.mpr ⟨_, _, _, hk, htake, hfail⟩⟩

/-- What a failure leaves; the functions then still have identifiers below the counter. -/
theorem FailsAt.leaves (h : FailsAt settings packageId drafts client point failure last)
    (hstore : WellNumbered settings client.store n) :
    point.Leaves settings packageId client.store (numbered n drafts) last.store ∧
      ∃ n', WellNumbered settings last.store n' := by
  have hbelow : ∀ r ∈ numbered n drafts, r.id < n + drafts.length :=
    fun r hr => (mem_numbered hr).2.1
  cases h with
  | query hquery =>
      rw [queryWith_error hquery]
      exact ⟨.of_same fun _ _ => rfl, n, hstore⟩
  | reservation hquery hrecord =>
      obtain ⟨-, rfl⟩ := queryWith_ok hquery
      have hcounts : Counts settings (client.note (.stream (functions settings))).store n :=
        hstore.counts
      rw [record_error hcounts hrecord]
      exact ⟨.of_same fun _ _ => rfl, n, hstore⟩
  | @write _ _ k _ _ _ _ _ _ hquery hrecord hk htake hfail =>
      obtain ⟨-, rfl, hcounts, hsecond⟩ := hstore.prepared hquery hrecord
      have hlast := commitBatch_error hfail
      rw [(commitBatches_ok htake).1, flatten_take_writeBatches, ← List.append_nil (List.map _ _),
        ← List.map_nil] at hlast
      have hwritten := flatten_take_batches settings.batchSize (numbered n drafts) k
      obtain ⟨hexchanged, hcounts'⟩ := hstore.exchanged hcounts hsecond hwritten.sublist
        (List.nil_subset (idsOf settings client.store packageId)) hlast
      exact ⟨hexchanged, _, hexchanged.wellNumbered hstore hcounts' (Nat.le_add_right n _)
        fun r hr => hbelow r (hwritten.subset hr)⟩
  | @delete _ _ k _ _ _ _ _ _ _ hquery hrecord hwrites hk htake hfail =>
      obtain ⟨hfound, rfl, hcounts, hsecond⟩ := hstore.prepared hquery hrecord
      have hlast := commitBatch_error hfail
      rw [(commitBatches_ok htake).1, (commitBatches_ok hwrites).1, ← Store.commit_append,
        flatten_writeBatches, flatten_take_deleteBatches, hfound, hstore.outdated_eq] at hlast
      have hdeleted := flatten_take_batches settings.batchSize
        (idsOf settings client.store packageId) k
      obtain ⟨hexchanged, hcounts'⟩ := hstore.exchanged hcounts hsecond (List.Sublist.refl _)
        hdeleted.subset hlast
      exact ⟨hexchanged, _, hexchanged.wellNumbered hstore hcounts' (Nat.le_add_right n _) hbelow⟩

end Failure

/-! ## Stores that calls lead to -/

/-- The stores that come from an empty one by calls that replace functions, with whatever batch size
and whatever is refused to them, and by calls that write packages. -/
inductive Reachable (settings : Settings) : Store → Prop where
  | empty : Reachable settings .empty
  | replace (packageId : String) (drafts : List FunctionDraft) {batchSize : Nat} {client : Client} :
      1 ≤ batchSize → Reachable settings client.store →
      Reachable settings
        (perform (replaceFunctions { settings with batchSize } packageId drafts) client).2.store
  | upsert (record : Package.Record) {client : Client} : Reachable settings client.store →
      Reachable settings (perform (upsertPackage settings record) client).2.store
  | update (now id : String) (updates : Fields) {client : Client} :
      Reachable settings client.store →
      Reachable settings (perform (updatePackage settings now id updates) client).2.store

theorem WellNumbered.empty (settings : Settings) : WellNumbered settings .empty 0 :=
  ⟨Or.inl ⟨rfl, rfl⟩, nofun⟩

theorem WellNumbered.withBatchSize (h : WellNumbered settings store n) (batchSize : Nat) :
    WellNumbered { settings with batchSize } store n :=
  ⟨h.counts, h.documents⟩

theorem WellNumbered.of_within {before after : Client} (h : WellNumbered settings before.store n)
    (hwithin : Store.Within (packages settings) before after) :
    WellNumbered settings after.store n where
  counts := h.counts.congr (hwithin _ (packages_ne_counters settings).symm)
  documents key fields hkey hfields := by
    rw [hwithin key (hkey ▸ (packages_ne_functions settings).symm)] at hfields
    exact h.documents key fields hkey hfields

/-- Whatever a call does, all functions have identifiers below the counter afterwards. -/
theorem WellNumbered.replace {client : Client} (h : WellNumbered settings client.store n)
    (packageId : String) (drafts : List FunctionDraft) :
    ∃ n', WellNumbered settings
      (perform (replaceFunctions settings packageId drafts) client).2.store n' := by
  generalize houtcome : perform (replaceFunctions settings packageId drafts) client = outcome
  obtain ⟨failure | records, last⟩ := outcome
  · obtain ⟨point, hfails⟩ := replaceFunctions_error_iff.mp houtcome
    exact (hfails.leaves h).2
  · obtain ⟨rfl, hexchanged, hcounts⟩ := h.replaced houtcome
    exact ⟨_, hexchanged.wellNumbered h hcounts (Nat.le_add_right n _)
      fun r hr => (mem_numbered hr).2.1⟩

theorem within_upsertPackage (settings : Settings) (record : Package.Record) :
    Store.Keeps (Store.Within (packages settings)) (upsertPackage settings record) := by
  refine Store.within_orElse ?_ false
  exact Store.keeps_bind .trans
    (Store.within_setDocument (packageKey settings record.packageId) record.toFields)
    fun _ => Store.keeps_pure .refl true

theorem within_updatePackage (settings : Settings) (now id : String) (updates : Fields) :
    Store.Keeps (Store.Within (packages settings)) (updatePackage settings now id updates) := by
  refine Store.within_orElse ?_ false
  exact Store.keeps_bind .trans (Store.within_updateDocument (packageKey settings id) _)
    fun _ => Store.keeps_pure .refl true

/-- The functions of every store that calls lead to have identifiers below its counter. -/
theorem Reachable.wellNumbered (h : Reachable settings store) :
    ∃ n, WellNumbered settings store n := by
  induction h with
  | empty => exact ⟨0, .empty settings⟩
  | @replace packageId drafts batchSize _ _ _ ih =>
      obtain ⟨n, hn⟩ := ih
      obtain ⟨n', hn'⟩ := (hn.withBatchSize batchSize).replace packageId drafts
      exact ⟨n', hn'.counts, hn'.documents⟩
  | upsert record _ ih =>
      obtain ⟨n, hn⟩ := ih
      exact ⟨n, hn.of_within (within_upsertPackage settings record _)⟩
  | update now id updates _ ih =>
      obtain ⟨n, hn⟩ := ih
      exact ⟨n, hn.of_within (within_updatePackage settings now id updates _)⟩

/-! ## Main results -/

section Main

variable {client last : Client} {failure : Failure}

theorem map_commitCall_allBatches (settings : Settings) (stale : List String)
    (records : List FunctionRecord) :
    (allBatches settings stale records).map commitCall =
      ((batches settings.batchSize records).map List.length).map (.commitBatch · 0) ++
        ((batches settings.batchSize (outdated stale records)).map List.length).map
          (.commitBatch 0 ·) := by
  rw [allBatches, List.map_append, writeBatches, deleteBatches, List.map_map, List.map_map,
    List.map_map, List.map_map]
  congr 1
  · exact List.map_congr_left fun batch _ => commitCall_sets settings batch
  · exact List.map_congr_left fun batch _ => commitCall_deletes settings batch

theorem WellNumbered.commits (h : WellNumbered settings client.store n)
    (hdone : perform (replaceFunctions settings packageId drafts) client = (.ok records, last)) :
    ∃ new, last.calls = new ++ client.calls ∧
      new.reverse.filter (·.operation = .commitBatch) =
        ((batches settings.batchSize records).map List.length).map (.commitBatch · 0) ++
          ((batches settings.batchSize (idsOf settings client.store packageId)).map
            List.length).map (.commitBatch 0 ·) := by
  obtain ⟨found, first, second, hquery, hrecord, hcommit⟩ := replaceFunctions_ok hdone
  obtain ⟨hfound, rfl, -, -⟩ := h.prepared hquery hrecord
  obtain ⟨-, rfl⟩ := queryWith_ok hquery
  have hspares := @spares_record settings .commitBatch ⟨nofun, nofun, nofun, nofun⟩ drafts
    (client.note (.stream (functions settings)))
  rw [hrecord] at hspares
  obtain ⟨reserving, hreserving, hothers⟩ := hspares.calls_eq
  have hcalls := (commitBatches_ok hcommit).2
  have hkept : ((allBatches settings (found.map (·.1)) (numbered n drafts)).map commitCall).filter
      (·.operation = .commitBatch) =
        (allBatches settings (found.map (·.1)) (numbered n drafts)).map commitCall := by
    refine List.filter_eq_self.mpr fun c hc => ?_
    obtain ⟨batch, -, rfl⟩ := List.mem_map.mp hc
    rfl
  have hdropped : reserving.reverse.filter (·.operation = .commitBatch) = [] := by
    refine List.filter_eq_nil_iff.mpr fun c hc => ?_
    simpa using hothers c (List.mem_reverse.mp hc)
  rw [← h.outdated_eq packageId drafts, ← hfound, ← map_commitCall_allBatches]
  refine ⟨((allBatches settings (found.map (·.1)) (numbered n drafts)).map commitCall).reverse ++
    (reserving ++ [.stream (functions settings)]), ?_, ?_⟩
  · rw [hcalls, hreserving, List.append_assoc, List.append_assoc]
    rfl
  · rw [List.reverse_append, List.reverse_append, List.filter_append, List.filter_append,
      List.reverse_reverse, hkept, hdropped]
    rfl

/-- A call that returns is exact.  The functions of the package are then just the new ones, in order
and with the next identifiers; nothing else has changed but the counter; and there was one commit for
each batch, first of those that write and then of those that delete. -/
theorem replace_exact (r : Replacement) (hreachable : Reachable settings client.store)
    (hdone : perform (replaceFunctions (r.settings settings) r.packageId r.drafts) client =
      (.ok records, last)) :
    (∃ n, Counts settings client.store n ∧ records = numbered n r.drafts ∧
      Counts settings last.store (n + r.drafts.length)) ∧
    Holds settings last.store r.packageId records ∧
    (∀ packageId ≠ r.packageId, Agree settings packageId client.store last.store) ∧
    (∀ key, key.collection ≠ functions settings → key ≠ counterKey settings →
      last.store.get? key = client.store.get? key) ∧
    ∃ (new : List Call) (writes deletes : List Nat), last.calls = new ++ client.calls ∧
      new.reverse.filter (·.operation = .commitBatch) =
        writes.map (.commitBatch · 0) ++ deletes.map (.commitBatch 0 ·) ∧
      writes.length = r.drafts.length ⌈/⌉ r.batchSize ∧
      writes.sum = r.drafts.length ∧
      deletes.length = (idsOf settings client.store r.packageId).length ⌈/⌉ r.batchSize ∧
      deletes.sum = (idsOf settings client.store r.packageId).length ∧
      ∀ size ∈ writes ++ deletes, size ≤ r.batchSize := by
  obtain ⟨n, hn⟩ := hreachable.wellNumbered
  have hsized : WellNumbered (r.settings settings) client.store n := hn.withBatchSize r.batchSize
  obtain ⟨rfl, hexchanged, hcounts⟩ := hsized.replaced hdone
  have howned : ∀ record ∈ numbered n r.drafts, record.packageId = r.packageId :=
    fun record => packageId_of_mem_numbered r.owned
  refine ⟨⟨n, hn.counts, rfl, hcounts⟩, hexchanged.holds howned, ?_, ?_, ?_⟩
  · exact fun packageId hne => hexchanged.agree howned (List.Subset.refl _) hne
  · exact fun key hkey hcounter => hexchanged.get?_of_ne hkey hcounter
  · obtain ⟨new, hcalls, hcommits⟩ := hsized.commits hdone
    refine ⟨new, (batches r.batchSize (numbered n r.drafts)).map List.length,
      (batches r.batchSize (idsOf settings client.store r.packageId)).map List.length, hcalls,
      hcommits, ?_, ?_, ?_, ?_, ?_⟩
    · rw [List.length_map, length_batches r.batchSize_pos, length_numbered]
    · rw [← List.length_flatten, flatten_batches, length_numbered]
    · rw [List.length_map, length_batches r.batchSize_pos]
    · rw [← List.length_flatten, flatten_batches]
    · intro size hsize
      rcases List.mem_append.mp hsize with hwrite | hdelete
      · obtain ⟨batch, hbatch, rfl⟩ := List.mem_map.mp hwrite
        exact (length_le_of_mem_batches r.batchSize_pos hbatch).2
      · obtain ⟨batch, hbatch, rfl⟩ := List.mem_map.mp hdelete
        exact (length_le_of_mem_batches r.batchSize_pos hbatch).2

/-- A call that returns after one that failed with its second batch: what that left is gone. -/
theorem replace_exact_sample :
    let draft (name : String) : FunctionDraft := { packageId := "a", name, signature := "Int" }
    let failed : Replacement := ⟨"a", [draft "f", draft "g"], 1, by decide, by decide⟩
    let call : Replacement := ⟨"a", [draft "h"], 1, by decide, by decide⟩
    let store : Store := ⟨[(functionKey {} 0, ((draft "f").withId 0).toFields),
      (counterKey {}, [("next", .int 2)])], by decide⟩
    (perform (replaceFunctions (failed.settings {}) "a" failed.drafts)
      ⟨.empty, [⟨.commitBatch, 1, 1, .runtime, "busy"⟩], []⟩).2.store = store ∧
    ∃ last : Client,
      perform (replaceFunctions (call.settings {}) "a" call.drafts) ⟨store, [], []⟩ =
        (.ok [(draft "h").withId 2], last) ∧
      Holds {} last.store "a" [(draft "h").withId 2] := by
  intro draft failed call store
  have hstore : (perform (replaceFunctions (failed.settings {}) "a" failed.drafts)
      ⟨.empty, [⟨.commitBatch, 1, 1, .runtime, "busy"⟩], []⟩).2.store = store := by
    cbv
  have hreachable : Reachable {} store := hstore ▸ .replace "a" failed.drafts failed.batchSize_pos .empty
  have hresult : (perform (replaceFunctions (call.settings {}) "a" call.drafts)
      ⟨store, [], []⟩).1 = .ok [(draft "h").withId 2] := by
    cbv
  have hdone : perform (replaceFunctions (call.settings {}) "a" call.drafts) ⟨store, [], []⟩ =
      (.ok [(draft "h").withId 2], _) :=
    Prod.ext hresult rfl
  obtain ⟨-, hholds, -⟩ := replace_exact call hreachable hdone
  exact ⟨hstore, _, hdone, hholds⟩

/-- A call fails just when one of its steps does.  The documents of other packages are then as they
were; and of those of its own package all old ones are there, or all new ones, for what it has done
is what the steps before do. -/
theorem replace_failure (r : Replacement) (hreachable : Reachable settings client.store) :
    (∀ failure last,
      perform (replaceFunctions (r.settings settings) r.packageId r.drafts) client =
        (.error failure, last) ↔
      ∃ point, FailsAt (r.settings settings) r.packageId r.drafts client point failure last) ∧
    ∃ n, Counts settings client.store n ∧ ∀ point failure last,
      FailsAt (r.settings settings) r.packageId r.drafts client point failure last →
        (∀ packageId ≠ r.packageId, Agree settings packageId client.store last.store) ∧
        point.Leaves (r.settings settings) r.packageId client.store (numbered n r.drafts)
          last.store ∧
        ((∀ key fields, IsOf settings r.packageId key fields →
            client.store.get? key = some fields → last.store.get? key = some fields) ∨
          ∀ record ∈ numbered n r.drafts,
            last.store.get? (functionKey settings record.id) = some record.toFields) := by
  obtain ⟨n, hn⟩ := hreachable.wellNumbered
  have howned : ∀ record ∈ numbered n r.drafts, record.packageId = r.packageId :=
    fun record => packageId_of_mem_numbered r.owned
  refine ⟨fun _ _ => replaceFunctions_error_iff, n, hn.counts, ?_⟩
  intro point failure last hfails
  have hleaves := (hfails.leaves (hn.withBatchSize r.batchSize)).1
  obtain ⟨written, deleted, hwritten, hdeleted, hway, hexchanged⟩ := hleaves.exchanged
  refine ⟨fun packageId hne => ?_, hleaves, ?_⟩
  · exact hexchanged.agree (fun record hrecord => howned record (hwritten hrecord)) hdeleted hne
  · rcases hway with rfl | rfl
    · exact Or.inl fun key fields hof => hexchanged.old (ne_counterKey hof.1)
    · exact Or.inr fun record => hexchanged.new

/-- A call that fails with its second batch leaves the first one there. -/
theorem replace_failure_sample :
    let draft (name : String) : FunctionDraft := { packageId := "a", name, signature := "Int" }
    let call : Replacement := ⟨"a", [draft "f", draft "g"], 1, by decide, by decide⟩
    let client : Client := ⟨.empty, [⟨.commitBatch, 1, 1, .runtime, "busy"⟩], []⟩
    ∃ last, FailsAt (call.settings {}) "a" call.drafts client (.write 1)
        (.refused .runtime "busy") last ∧
      Exchanged {} .empty [(draft "f").withId 0] [] last.store := by
  intro draft call client
  have hfails : FailsAt (call.settings {}) "a" call.drafts client (.write 1)
      (.refused .runtime "busy") _ :=
    .write (Prod.ext (by cbv) rfl) (Prod.ext (by cbv) rfl) (by cbv) (Prod.ext (by cbv) rfl)
      (Prod.ext (by cbv) rfl)
  have hreachable : Reachable {} client.store := .empty
  obtain ⟨-, n, hcounts, hall⟩ := replace_failure call hreachable
  obtain rfl : n = 0 := hcounts.unique (Or.inl ⟨rfl, rfl⟩)
  obtain ⟨-, hleaves, -⟩ := hall _ _ _ hfails
  have hfirst : ((batches call.batchSize (numbered 0 call.drafts)).take 1).flatten =
      [(draft "f").withId 0] := by
    cbv
  exact ⟨_, hfails, hfirst ▸ hleaves⟩

end Main

end SignatureSearch.Database
