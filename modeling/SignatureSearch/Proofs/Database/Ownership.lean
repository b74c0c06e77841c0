/-
# `Proofs.Database.Ownership` — the documents of a package

A document of the functions is `IsOf` the package that it names.  What a store
holds of a package is compared with records (`Holds`), and with what another
store holds of it (`Agree`).  Writes to documents of other packages make no
difference, and writing all new functions and deleting all older ones leaves
just the new ones (`holds_replaced`).
-/
import SignatureSearch.Proofs.Database.Numbering

namespace SignatureSearch.Database

open Store (Write)

variable {settings : Settings} {packageId : String} {store store' : Store}
  {records : List FunctionRecord}

/-- The document of a function of a package. -/
def IsOf (settings : Settings) (packageId : String) (key : DocumentKey) (fields : Fields) : Prop :=
  key.collection = functions settings ∧ Json.field? fields "packageId" = some (.str packageId)

/-- The documents of a package are exactly those of the records. -/
def Holds (settings : Settings) (store : Store) (packageId : String)
    (records : List FunctionRecord) : Prop :=
  ∀ key fields, store.get? key = some fields ∧ IsOf settings packageId key fields ↔
    ∃ r ∈ records, key = functionKey settings r.id ∧ fields = r.toFields

/-- Two stores hold the same documents of a package. -/
def Agree (settings : Settings) (packageId : String) (store store' : Store) : Prop :=
  ∀ key fields, IsOf settings packageId key fields →
    (store.get? key = some fields ↔ store'.get? key = some fields)

theorem isOf_toFields (settings : Settings) (r : FunctionRecord) :
    IsOf settings r.packageId (functionKey settings r.id) r.toFields :=
  ⟨rfl, r.field?_packageId⟩

theorem IsOf.unique {packageId' : String} {key : DocumentKey} {fields : Fields}
    (h : IsOf settings packageId key fields) (h' : IsOf settings packageId' key fields) :
    packageId = packageId' :=
  Json.str.inj (Option.some.inj (h.2.symm.trans h'.2))

namespace Agree

theorem refl (settings : Settings) (packageId : String) (store : Store) :
    Agree settings packageId store store :=
  fun _ _ _ => Iff.rfl

theorem commit (h : Agree settings packageId store store') (writes : List Write) :
    Agree settings packageId (store.commit writes) (store'.commit writes) := by
  intro key fields hof
  rw [Store.get?_commit, Store.get?_commit]
  cases Store.lastWrite? writes key with
  | none => exact h key fields hof
  | some w => exact Iff.rfl

theorem holds_iff (h : Agree settings packageId store store') :
    Holds settings store packageId records ↔ Holds settings store' packageId records := by
  refine forall₂_congr fun key fields => iff_congr ?_ Iff.rfl
  exact and_congr_left (h key fields)

theorem of_put {key : DocumentKey} (hkey : functions settings ≠ key.collection) (packageId : String)
    (store : Store) (fields : Fields) : Agree settings packageId store (store.put key fields) := by
  intro key' fields' hof
  rw [store.get?_put_of_ne ?_ fields]
  rintro rfl
  exact hkey hof.1.symm

/-- Writes to documents of other packages, with new keys for those that are set. -/
theorem of_commit {writes : List Write}
    (hsets : ∀ key fields, .set key fields ∈ writes →
      store.get? key = none ∧ ¬ IsOf settings packageId key fields)
    (hdeletes : ∀ key fields, .delete key ∈ writes → store.get? key = some fields →
      ¬ IsOf settings packageId key fields) :
    Agree settings packageId store (store.commit writes) := by
  intro key fields hof
  constructor
  · intro hfields
    rw [Store.get?_commit_of_notMem ?_, hfields]
    intro hkey
    obtain ⟨w, hw, rfl⟩ := List.mem_map.mp hkey
    cases w with
    | set key fields' =>
        exact Option.some_ne_none _ (hfields.symm.trans (hsets key fields' hw).1)
    | delete key => exact hdeletes key fields hw hfields hof
  · intro hfields
    rcases Store.get?_commit_eq_some hfields with hset | ⟨hold, -⟩
    · exact absurd hof (hsets key fields hset).2
    · exact hold

end Agree

/-! ## Writing functions and deleting others -/

theorem mem_outdated {stale : List String} {id : String} :
    id ∈ outdated stale records ↔ id ∈ stale ∧ ∀ r ∈ records, toString r.id ≠ id := by
  simp [outdated]

theorem get?_exchange {ids : List String} (hnodup : (records.map (·.id)).Nodup)
    (hapart : ∀ r ∈ records, toString r.id ∉ ids) {key : DocumentKey} {fields : Fields} :
    (store.commit (records.map (setFunction settings) ++
        ids.map (deleteFunction settings))).get? key = some fields ↔
      (∃ r ∈ records, key = functionKey settings r.id ∧ fields = r.toFields) ∨
      store.get? key = some fields ∧ (∀ r ∈ records, key ≠ functionKey settings r.id) ∧
        ∀ id ∈ ids, key ≠ ⟨functions settings, id⟩ := by
  have hkeys : (records.map (setFunction settings) ++ ids.map (deleteFunction settings)).map
      Write.key = records.map (fun r => functionKey settings r.id) ++
        ids.map (DocumentKey.mk (functions settings)) := by
    rw [List.map_append, List.map_map, List.map_map]
    rfl
  constructor
  · intro hfields
    rcases Store.get?_commit_eq_some hfields with hset | ⟨hold, hkept⟩
    · rcases List.mem_append.mp hset with hnew | hdelete
      · obtain ⟨r, hr, heq⟩ := List.mem_map.mp hnew
        obtain ⟨rfl, rfl⟩ := Write.set.inj heq
        exact Or.inl ⟨r, hr, rfl, rfl⟩
      · exact absurd (List.mem_map.mp hdelete) (by simp [deleteFunction])
    · rw [hkeys, List.mem_append, not_or] at hkept
      refine Or.inr ⟨hold, fun r hr heq => ?_, fun id hid heq => ?_⟩
      · exact hkept.1 (List.mem_map.mpr ⟨r, hr, heq.symm⟩)
      · exact hkept.2 (List.mem_map.mpr ⟨id, hid, heq.symm⟩)
  · rintro (⟨r, hr, rfl, rfl⟩ | ⟨hold, hnew, hgone⟩)
    · have hset : setFunction settings r ∈ records.map (setFunction settings) ++
          ids.map (deleteFunction settings) :=
        List.mem_append_left _ (List.mem_map_of_mem hr)
      obtain ⟨w, hw, hkey, hlast⟩ :=
        Store.exists_lastWrite (List.mem_map_of_mem (f := Write.key) hset)
      rw [Store.get?_commit]
      rw [show functionKey settings r.id = (setFunction settings r).key from rfl, hlast]
      rcases List.mem_append.mp hw with hwrite | hdelete
      · obtain ⟨r', hr', rfl⟩ := List.mem_map.mp hwrite
        rw [List.inj_on_of_nodup_map hnodup hr' hr (functionKey_inj.mp hkey)]
        rfl
      · obtain ⟨id, hid, rfl⟩ := List.mem_map.mp hdelete
        obtain rfl : id = toString r.id := congrArg DocumentKey.id hkey
        exact absurd hid (hapart r hr)
    · rw [Store.get?_commit_of_notMem ?_, hold]
      rw [hkeys, List.mem_append, List.mem_map, List.mem_map]
      rintro (⟨r, hr, heq⟩ | ⟨id, hid, heq⟩)
      · exact hnew r hr heq.symm
      · exact hgone id hid heq.symm

/-- When all that was there is written over or deleted, the new functions are left. -/
theorem holds_replaced {stale : List String}
    (hstale : ∀ key fields, store.get? key = some fields → IsOf settings packageId key fields →
      key.id ∈ stale)
    (hrecords : ∀ r ∈ records, r.packageId = packageId) (hids : (records.map (·.id)).Nodup) :
    Holds settings (store.commit (records.map (setFunction settings) ++
      (outdated stale records).map (deleteFunction settings))) packageId records := by
  have hapart : ∀ r ∈ records, toString r.id ∉ outdated stale records :=
    fun r hr hid => (mem_outdated.mp hid).2 r hr rfl
  intro key fields
  rw [get?_exchange hids hapart]
  constructor
  · rintro ⟨hnew | ⟨hold, hnew, hgone⟩, hof⟩
    · exact hnew
    · obtain ⟨collection, id⟩ := key
      obtain rfl : collection = functions settings := hof.1
      refine absurd rfl (hgone id (mem_outdated.mpr ⟨hstale _ fields hold hof, fun r hr hid => ?_⟩))
      exact hnew r hr (congrArg _ hid.symm)
  · rintro ⟨r, hr, rfl, rfl⟩
    exact ⟨Or.inl ⟨r, hr, rfl, rfl⟩, hrecords r hr ▸ isOf_toFields settings r⟩

end SignatureSearch.Database
