/-
# `Proofs.Store.Contents` — a store is known by the document of each key

No key occurs twice, so that a store says the same as the function `get?`.  What
is done to a store is stated through it:

    put, erase    change the document of one key
    commit        leaves what the last write to a key says, and the rest alone
    documents     lists what `get?` finds in a collection, each key once
-/
import Mathlib.Data.List.Induction
import Mathlib.Data.List.Nodup
import SignatureSearch.Store

namespace SignatureSearch.Store

/-! ## Documents by their keys -/

theorem get?_eq_some_iff {store : Store} {key : DocumentKey} {fields : Fields} :
    store.get? key = some fields ↔ (key, fields) ∈ store.entries := by
  rw [get?, List.lookup_eq_some_iff]
  constructor
  · rintro ⟨before, after, hentries, -⟩
    rw [hentries]
    exact List.mem_append_right _ List.mem_cons_self
  · intro hmem
    obtain ⟨before, after, hentries⟩ := List.append_of_mem hmem
    refine ⟨before, after, hentries, ?_⟩
    intro entry hentry
    -- A second entry under the key would stand before this one.
    have hdistinct := store.distinct
    rw [hentries, List.map_append, List.map_cons, List.nodup_append] at hdistinct
    have hne : entry.1 ≠ key :=
      hdistinct.2.2 _ (List.mem_map_of_mem hentry) _ List.mem_cons_self
    simpa using hne.symm

theorem get?_erase (store : Store) (key key' : DocumentKey) :
    (store.erase key).get? key' = if key' = key then none else store.get? key' := by
  ext fields
  rw [get?_eq_some_iff]
  by_cases h : key' = key
  · simp [h, erase]
  · simp [h, erase, ← get?_eq_some_iff]

theorem get?_put (store : Store) (key key' : DocumentKey) (fields : Fields) :
    (store.put key fields).get? key' = if key' = key then some fields else store.get? key' := by
  by_cases h : key' = key
  · subst h
    simp [get?, put]
  · rw [if_neg h, ← (get?_erase store key key').trans (if_neg h)]
    have hne : (key' == key) = false := by simpa using h
    rw [get?, put, List.lookup_cons, hne, get?]

theorem get?_put_self (store : Store) (key : DocumentKey) (fields : Fields) :
    (store.put key fields).get? key = some fields := by
  rw [get?_put, if_pos rfl]

theorem get?_put_of_ne (store : Store) {key key' : DocumentKey} (h : key' ≠ key)
    (fields : Fields) : (store.put key fields).get? key' = store.get? key' := by
  rw [get?_put, if_neg h]

/-! ## Commits -/

def Write.key : Write → DocumentKey
  | .set key _ => key
  | .delete key => key

def Write.outcome : Write → Option Fields
  | .set _ fields => some fields
  | .delete _ => none

def setKeys (writes : List Write) : List DocumentKey :=
  writes.filterMap fun
    | .set key _ => some key
    | .delete _ => none

theorem mem_setKeys {writes : List Write} {key : DocumentKey} :
    key ∈ setKeys writes ↔ ∃ fields, .set key fields ∈ writes := by
  rw [setKeys, List.mem_filterMap]
  constructor
  · rintro ⟨w, hw, hkey⟩
    cases w with
    | set key' fields =>
        obtain rfl := Option.some.inj hkey
        exact ⟨fields, hw⟩
    | delete key' => exact absurd hkey (by simp)
  · rintro ⟨fields, hset⟩
    exact ⟨_, hset, rfl⟩

theorem setKeys_append (writes more : List Write) :
    setKeys (writes ++ more) = setKeys writes ++ setKeys more :=
  List.filterMap_append

theorem get?_write (store : Store) (w : Write) (key : DocumentKey) :
    (store.write w).get? key = if key = w.key then w.outcome else store.get? key := by
  cases w with
  | set key' fields => exact get?_put store key' key fields
  | delete key' => exact get?_erase store key' key

theorem commit_append (store : Store) (writes more : List Write) :
    store.commit (writes ++ more) = (store.commit writes).commit more :=
  List.foldl_append

def lastWrite? (writes : List Write) (key : DocumentKey) : Option Write :=
  writes.reverse.find? (·.key = key)

theorem lastWrite?_eq_none {writes : List Write} {key : DocumentKey}
    (h : key ∉ writes.map Write.key) : lastWrite? writes key = none := by
  rw [lastWrite?, List.find?_eq_none]
  intro w hw hkey
  exact h (List.mem_map.mpr ⟨w, List.mem_reverse.mp hw, by simpa using hkey⟩)

theorem exists_lastWrite {writes : List Write} {key : DocumentKey}
    (h : key ∈ writes.map Write.key) :
    ∃ w ∈ writes, w.key = key ∧ lastWrite? writes key = some w := by
  obtain ⟨w₀, hw₀, hkey₀⟩ := List.mem_map.mp h
  have hfound : (lastWrite? writes key).isSome := by
    rw [lastWrite?, List.find?_isSome]
    exact ⟨w₀, List.mem_reverse.mpr hw₀, by simpa using hkey₀⟩
  obtain ⟨w, hw⟩ := Option.isSome_iff_exists.mp hfound
  have hmem : w ∈ writes := List.mem_reverse.mp (List.mem_of_find?_eq_some hw)
  exact ⟨w, hmem, by simpa using List.find?_some hw, hw⟩

theorem get?_commit (store : Store) (writes : List Write) (key : DocumentKey) :
    (store.commit writes).get? key =
      ((lastWrite? writes key).map Write.outcome).getD (store.get? key) := by
  induction writes using List.reverseRecOn with
  | nil => rfl
  | append_singleton writes w ih =>
      rw [commit_append, lastWrite?, List.reverse_append, List.reverse_singleton,
        List.singleton_append, List.find?_cons, ← lastWrite?]
      show ((store.commit writes).write w).get? key = _
      rw [get?_write, ih]
      by_cases h : w.key = key
      · simp [h]
      · simp [h, Ne.symm h]

theorem get?_commit_of_notMem {store : Store} {writes : List Write} {key : DocumentKey}
    (h : key ∉ writes.map Write.key) : (store.commit writes).get? key = store.get? key := by
  rw [get?_commit, lastWrite?_eq_none h]
  rfl

/-- What a store holds after a commit is written there, or was held before. -/
theorem get?_commit_eq_some {store : Store} {writes : List Write} {key : DocumentKey}
    {fields : Fields} (h : (store.commit writes).get? key = some fields) :
    .set key fields ∈ writes ∨ store.get? key = some fields ∧ key ∉ writes.map Write.key := by
  by_cases hmem : key ∈ writes.map Write.key
  · obtain ⟨w, hw, hkey, hlast⟩ := exists_lastWrite hmem
    rw [get?_commit, hlast] at h
    cases w with
    | set key' fields' =>
        obtain rfl : key' = key := hkey
        obtain rfl : fields' = fields := Option.some.inj h
        exact Or.inl hw
    | delete key' => exact absurd h (by simp [Write.outcome])
  · exact Or.inr ⟨by rwa [get?_commit_of_notMem hmem] at h, hmem⟩

/-! ## Collections -/

theorem mem_documents {store : Store} {collection id : String} {fields : Fields} :
    (id, fields) ∈ store.documents collection ↔ store.get? ⟨collection, id⟩ = some fields := by
  rw [documents, List.mem_mergeSort, List.mem_filterMap, get?_eq_some_iff]
  constructor
  · rintro ⟨⟨key, fields'⟩, hmem, hsome⟩
    by_cases h : key.collection = collection
    · obtain ⟨rfl, rfl⟩ : key.id = id ∧ fields' = fields := by simpa [h] using hsome
      subst h
      exact hmem
    · exact absurd hsome (by simp [h])
  · intro hmem
    exact ⟨(⟨collection, id⟩, fields), hmem, by simp⟩

theorem mem_documentsWith {store : Store} {collection field id : String} {value : Json}
    {fields : Fields} :
    (id, fields) ∈ store.documentsWith collection field value ↔
      store.get? ⟨collection, id⟩ = some fields ∧ Json.field? fields field = some value := by
  rw [documentsWith, List.mem_filter, mem_documents]
  simp

theorem nodup_documents (store : Store) (collection : String) :
    ((store.documents collection).map (·.1)).Nodup := by
  rw [documents, ((List.mergeSort_perm _ _).map _).nodup_iff, List.map_filterMap]
  have hdistinct := List.pairwise_map.mp store.distinct
  refine List.Pairwise.filterMap _ ?_ hdistinct
  rintro ⟨key, fields⟩ ⟨key', fields'⟩ hne id hid id' hid' rfl
  by_cases h : key.collection = collection <;> by_cases h' : key'.collection = collection
  · simp only [h, h', if_true, Option.map_some, Option.some.injEq] at hid hid'
    refine hne ?_
    cases key
    cases key'
    simp_all
  all_goals simp [h, h'] at hid hid'

end SignatureSearch.Store
