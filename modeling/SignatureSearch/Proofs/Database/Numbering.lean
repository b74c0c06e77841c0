/-
# `Proofs.Database.Numbering` — where functions are stored, and under which numbers

A stored function is known by its identifier, and the document it becomes says
all about it (`ofFields_toFields`).  The counter of a store `Counts n` if the
identifiers from `n` on are free to be handed out.  Then reserving gives the
drafts the next identifiers in a row (`numbered`), and moves the counter past
them.

    batches     cut a list without loss, in pieces of at most the given size
-/
import Mathlib
import SignatureSearch.Database
import SignatureSearch.Proofs.Store.Contents

namespace SignatureSearch

open Store (Write Failure)

/-! ## Records -/

def FunctionDraft.withId (draft : FunctionDraft) (id : Nat) : FunctionRecord where
  id
  packageId := draft.packageId
  name := draft.name
  signature := draft.signature
  moduleName := draft.moduleName

namespace FunctionRecord

theorem field?_id (r : FunctionRecord) : Json.field? r.toFields "id" = some (.int r.id) := by
  simp [Json.field?, toFields]

theorem field?_packageId (r : FunctionRecord) :
    Json.field? r.toFields "packageId" = some (.str r.packageId) := by
  simp [Json.field?, toFields]

theorem field?_signature (r : FunctionRecord) :
    Json.field? r.toFields "typeSignature" = some (.str r.signature) := by
  simp [Json.field?, toFields]

theorem ofFields_toFields (r : FunctionRecord) : ofFields r.toFields = .valid r := by
  obtain ⟨id, packageId, name, signature, moduleName⟩ := r
  have hname : Json.field? (toFields ⟨id, packageId, name, signature, moduleName⟩) "name" =
      some (.str name) := by
    simp [Json.field?, toFields]
  have hmodule : Json.field? (toFields ⟨id, packageId, name, signature, moduleName⟩) "moduleName" =
      some (.ofOption moduleName) := by
    simp [Json.field?, toFields]
  rw [ofFields, Validation.required, field?_id, Validation.required, field?_packageId,
    Validation.required, hname, Validation.required, field?_signature, Validation.optional,
    Validation.defaulted, hmodule]
  have hid : readId (.int id) = .valid id := by
    have hneg : ¬ (id : Int) < 0 := Int.not_lt.mpr (Int.natCast_nonneg id)
    simp [readId, Validation.refine, Validation.integer, Validation.Checked.andThen, hneg]
  dsimp only
  rw [hid]
  cases moduleName <;> rfl

end FunctionRecord

namespace Database

/-! ## Collections and keys -/

theorem collection_injective (settings : Settings) : Function.Injective (collection settings) := by
  intro name name' h
  unfold collection at h
  split at h
  · exact h
  · simpa [String.ext_iff, toString] using h

theorem functions_ne_counters (settings : Settings) :
    functions settings ≠ (counterKey settings).collection :=
  (collection_injective settings).ne (by decide)

theorem ne_counterKey {settings : Settings} {key : DocumentKey}
    (h : key.collection = functions settings) : key ≠ counterKey settings := by
  rintro rfl
  exact functions_ne_counters settings h.symm

theorem packages_ne_functions (settings : Settings) : packages settings ≠ functions settings :=
  (collection_injective settings).ne (by decide)

theorem packages_ne_counters (settings : Settings) :
    packages settings ≠ (counterKey settings).collection :=
  (collection_injective settings).ne (by decide)

theorem toString_injective : Function.Injective (toString : Int → String) := by
  intro a b h
  rw [Int.toString_eq_repr, Int.toString_eq_repr] at h
  exact Int.repr_injective h

theorem functionKey_injective (settings : Settings) :
    Function.Injective (functionKey settings) := by
  intro a b h
  exact toString_injective (congrArg DocumentKey.id h)

theorem functionKey_inj {settings : Settings} {m n : Nat} :
    functionKey settings m = functionKey settings n ↔ m = n := by
  rw [(functionKey_injective settings).eq_iff, Nat.cast_inj]

/-! ## The counter -/

/-- The counter of a store stands at a number; one that was never used stands at zero. -/
def Counts (settings : Settings) (store : Store) (n : Nat) : Prop :=
  store.get? (counterKey settings) = none ∧ n = 0 ∨
    store.get? (counterKey settings) = some [("next", .int n)]

theorem Counts.unique {settings : Settings} {store : Store} {m n : Nat}
    (hm : Counts settings store m) (hn : Counts settings store n) : m = n := by
  rcases hm with ⟨hm, rfl⟩ | hm <;> rcases hn with ⟨hn, rfl⟩ | hn
  · rfl
  · simp [hm] at hn
  · simp [hm] at hn
  · simpa [hm] using hn

theorem Counts.congr {settings : Settings} {store store' : Store} {n : Nat}
    (h : Counts settings store n)
    (hsame : store'.get? (counterKey settings) = store.get? (counterKey settings)) :
    Counts settings store' n := by
  rwa [Counts, hsame]

theorem Counts.put (settings : Settings) (store : Store) (n : Nat) :
    Counts settings (store.put (counterKey settings) [("next", .int n)]) n :=
  Or.inr (store.get?_put_self _ _)

/-- Every function of a store is under its own identifier, and the counter is above all of these. -/
structure WellNumbered (settings : Settings) (store : Store) (n : Nat) : Prop where
  counts : Counts settings store n
  documents : ∀ key fields, key.collection = functions settings → store.get? key = some fields →
    ∃ r : FunctionRecord, r.id < n ∧ key = functionKey settings r.id ∧ fields = r.toFields

theorem advance_eq {settings : Settings} {store : Store} {n : Nat} (h : Counts settings store n)
    (count : Nat) :
    advance count (store.get? (counterKey settings)) =
      .ok (.int n, [("next", .int (n + count : Nat))]) := by
  rcases h with ⟨hnone, rfl⟩ | hsome
  · rw [hnone]
    simp [advance, add, pure, Except.pure, bind, Except.bind]
  · rw [hsome]
    simp [advance, add, Json.field?, pure, Except.pure, bind, Except.bind]

/-! ## Numbers in a row -/

/-- Drafts with the identifiers from `n` on. -/
def numbered (n : Nat) (drafts : List FunctionDraft) : List FunctionRecord :=
  (drafts.zipIdx n).map fun (draft, id) => draft.withId id

theorem number_eq (n : Nat) (drafts : List FunctionDraft) :
    number (.int n) drafts = .ok (numbered n drafts) := by
  have hone : ∀ draft : FunctionDraft × Nat,
      (do
        let id ← add (.int n) draft.2
        (FunctionRecord.ofFields (("id", id) :: draft.1.toFields)).toExcept.mapError
          (.invalid FunctionRecord.title)) =
        (pure (draft.1.withId (n + draft.2)) : Except Failure FunctionRecord) := by
    intro draft
    show Except.mapError _ (FunctionRecord.ofFields
      (draft.1.withId (n + draft.2)).toFields).toExcept = _
    rw [FunctionRecord.ofFields_toFields]
    rfl
  rw [number]
  simp only [hone]
  rw [List.mapM_pure, numbered, List.zipIdx_eq_map_add (i := n), List.map_map]
  rfl

theorem length_numbered (n : Nat) (drafts : List FunctionDraft) :
    (numbered n drafts).length = drafts.length := by
  simp [numbered]

theorem map_id_numbered (n : Nat) (drafts : List FunctionDraft) :
    (numbered n drafts).map (·.id) = List.range' n drafts.length := by
  rw [numbered, List.map_map]
  exact List.zipIdx_map_snd n drafts

theorem mem_numbered {n : Nat} {drafts : List FunctionDraft} {r : FunctionRecord}
    (h : r ∈ numbered n drafts) :
    n ≤ r.id ∧ r.id < n + drafts.length ∧ ∃ draft ∈ drafts, r = draft.withId r.id := by
  obtain ⟨⟨draft, id⟩, hmem, rfl⟩ := List.mem_map.mp h
  refine ⟨List.le_snd_of_mem_zipIdx hmem, ?_, draft, List.fst_mem_of_mem_zipIdx hmem, rfl⟩
  exact List.snd_lt_add_of_mem_zipIdx hmem

theorem nodup_numbered (n : Nat) (drafts : List FunctionDraft) :
    ((numbered n drafts).map (·.id)).Nodup := by
  rw [map_id_numbered]
  exact List.nodup_range'

theorem packageId_of_mem_numbered {packageId : String} {n : Nat} {drafts : List FunctionDraft}
    (howned : ∀ draft ∈ drafts, draft.packageId = packageId) {r : FunctionRecord}
    (h : r ∈ numbered n drafts) : r.packageId = packageId := by
  obtain ⟨-, -, draft, hdraft, heq⟩ := mem_numbered h
  rw [heq]
  exact howned draft hdraft

/-! ## Batches -/

section Batches

variable {α : Type}

theorem flatten_batches (size : Nat) (items : List α) : (batches size items).flatten = items := by
  fun_induction batches size items with
  | case1 => rfl
  | case2 a rest ih => rw [List.flatten_cons, ih, List.cons_append, List.take_append_drop]

theorem length_le_of_mem_batches {size : Nat} (hsize : 1 ≤ size) {items batch : List α}
    (h : batch ∈ batches size items) : 0 < batch.length ∧ batch.length ≤ size := by
  fun_induction batches size items with
  | case1 => exact absurd h (by simp)
  | case2 a rest ih =>
      rcases List.mem_cons.mp h with rfl | hrest
      · simp
        omega
      · exact ih hrest

theorem length_batches {size : Nat} (hsize : 1 ≤ size) (items : List α) :
    (batches size items).length = items.length ⌈/⌉ size := by
  rw [Nat.ceilDiv_eq_add_pred_div]
  fun_induction batches size items with
  | case1 =>
      rw [List.length_nil, List.length_nil, Nat.div_eq_of_lt (by omega)]
  | case2 a rest ih =>
      rw [List.length_cons, ih, List.length_drop, List.length_cons]
      by_cases hshort : rest.length < size
      · have hzero : rest.length - (size - 1) + size - 1 < size := by omega
        rw [Nat.div_eq_of_lt hzero, Nat.div_eq_of_lt_le] <;> omega
      · have hstep : rest.length + 1 + size - 1 = rest.length - (size - 1) + size - 1 + size := by
          omega
        rw [hstep, Nat.add_div_right _ hsize]

theorem flatten_writeBatches (settings : Settings) (records : List FunctionRecord) :
    (writeBatches settings records).flatten = records.map (setFunction settings) := by
  rw [writeBatches, ← List.map_flatten, flatten_batches]

theorem flatten_deleteBatches (settings : Settings) (stale : List String)
    (records : List FunctionRecord) :
    (deleteBatches settings stale records).flatten =
      (outdated stale records).map (deleteFunction settings) := by
  rw [deleteBatches, ← List.map_flatten, flatten_batches]

theorem flatten_take_batches (size : Nat) (items : List α) (k : Nat) :
    ((batches size items).take k).flatten <+: items := by
  refine ⟨((batches size items).drop k).flatten, ?_⟩
  rw [← List.flatten_append, List.take_append_drop, flatten_batches]

theorem flatten_take_writeBatches (settings : Settings) (records : List FunctionRecord) (k : Nat) :
    ((writeBatches settings records).take k).flatten =
      ((batches settings.batchSize records).take k).flatten.map (setFunction settings) := by
  rw [writeBatches, ← List.map_take, List.map_flatten]

theorem flatten_take_deleteBatches (settings : Settings) (stale : List String)
    (records : List FunctionRecord) (k : Nat) :
    ((deleteBatches settings stale records).take k).flatten =
      ((batches settings.batchSize (outdated stale records)).take k).flatten.map
        (deleteFunction settings) := by
  rw [deleteBatches, ← List.map_take, List.map_flatten]

end Batches

/-- All batches of a replacement, in the order in which they are committed. -/
def allBatches (settings : Settings) (stale : List String) (records : List FunctionRecord) :
    List (List Write) :=
  writeBatches settings records ++ deleteBatches settings stale records

theorem flatten_allBatches (settings : Settings) (stale : List String)
    (records : List FunctionRecord) :
    (allBatches settings stale records).flatten =
      records.map (setFunction settings) ++
        (outdated stale records).map (deleteFunction settings) := by
  rw [allBatches, List.flatten_append, flatten_writeBatches, flatten_deleteBatches]

/-- A write of a replacement stores a new function, or deletes one that was found. -/
theorem mem_allBatches {settings : Settings} {stale : List String} {records : List FunctionRecord} {w : Write}
    (h : w ∈ (allBatches settings stale records).flatten) :
    (∃ r ∈ records, w = setFunction settings r) ∨ ∃ id ∈ stale, w = deleteFunction settings id := by
  rw [flatten_allBatches, List.mem_append, List.mem_map, List.mem_map] at h
  rcases h with ⟨r, hr, rfl⟩ | ⟨id, hid, rfl⟩
  · exact Or.inl ⟨r, hr, rfl⟩
  · exact Or.inr ⟨id, (List.mem_filter.mp hid).1, rfl⟩

theorem collection_of_mem_allBatches {settings : Settings} {stale : List String} {records : List FunctionRecord}
    {w : Write} (h : w ∈ (allBatches settings stale records).flatten) :
    w.key.collection = functions settings := by
  rcases mem_allBatches h with ⟨r, -, rfl⟩ | ⟨id, -, rfl⟩ <;> rfl

end Database
end SignatureSearch
