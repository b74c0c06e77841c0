/-
# `Proofs.Database.Lookup` — reading functions back

The functions of a store stand in a list, in the order of their identifiers
(`Lists`).  What is read from the store is read off this list:

    allSignatures    all of it, the signature and the identifier of each function
    getFunctions     some of it, in the order that is asked for, each function
                     with its package
-/
import SignatureSearch.Proofs.Database.Joining
import SignatureSearch.Proofs.Database.Numbering

namespace SignatureSearch.Database

open Store (Failure Client Later perform perform_bind_eq_ok fate)

variable {settings : Settings} {store : Store} {records : List FunctionRecord} {n : Nat}
  {client after : Client}

/-! ## All functions in order -/

/-- The functions of a store are those of a list, which is in the order of their identifiers. -/
structure Lists (settings : Settings) (store : Store) (records : List FunctionRecord) : Prop where
  ascending : records.Pairwise fun a b => a.id < b.id
  get?_iff : ∀ key fields, store.get? key = some fields ∧ key.collection = functions settings ↔
    ∃ r ∈ records, key = functionKey settings r.id ∧ fields = r.toFields

theorem Lists.get?_eq (h : Lists settings store records) {r : FunctionRecord} (hr : r ∈ records) :
    store.get? (functionKey settings r.id) = some r.toFields :=
  ((h.get?_iff _ _).mpr ⟨r, hr, rfl, rfl⟩).1

theorem valueLe_int (a b : Nat) : Store.valueLe (.int a) (.int b) = decide (a ≤ b) := by
  simp [Store.valueLe, Json.ratio?]

/-- The document of a function, with its key. -/
def listed (r : FunctionRecord) : String × Fields :=
  (toString (r.id : Int), r.toFields)

/-- The documents of the functions are those of some records, all with different identifiers. -/
theorem exists_documents (h : WellNumbered settings store n) :
    ∃ records : List FunctionRecord, (records.map (·.id)).Nodup ∧
      store.documents (functions settings) = records.map listed := by
  have hrange : store.documents (functions settings) ∈ Set.range (List.map listed) := by
    rw [Set.range_list_map]
    rintro ⟨id, fields⟩ hmem
    obtain ⟨r, -, hkey, rfl⟩ := h.documents _ fields rfl (Store.mem_documents.mp hmem)
    exact ⟨r, Prod.ext (congrArg DocumentKey.id hkey).symm rfl⟩
  obtain ⟨records, hrecords⟩ := hrange
  refine ⟨records, ?_, hrecords.symm⟩
  have hnodup := store.nodup_documents (functions settings)
  rw [← hrecords, List.map_map] at hnodup
  refine List.Nodup.of_map (fun id : Nat => toString (id : Int)) ?_
  rwa [List.map_map]

theorem pairwise_mergeSort_id (hids : (records.map (·.id)).Nodup) :
    (records.mergeSort fun a b => decide (a.id ≤ b.id)).Pairwise fun a b => a.id < b.id := by
  have hsorted : (records.mergeSort fun a b => decide (a.id ≤ b.id)).Pairwise
      fun a b => decide (a.id ≤ b.id) = true :=
    List.pairwise_mergeSort (fun a b c hab hbc => by simp at *; omega)
      (fun a b => by simp; omega) records
  have hne : (records.mergeSort fun a b => decide (a.id ≤ b.id)).Pairwise
      fun a b => a.id ≠ b.id :=
    List.pairwise_map.mp (((List.mergeSort_perm _ _).map _).nodup_iff.mpr hids)
  refine (hsorted.and hne).imp fun hab => ?_
  exact lt_of_le_of_ne (of_decide_eq_true hab.1) hab.2

/-- The functions stand in a list, and this is how they are listed by their identifiers. -/
theorem exists_lists (h : WellNumbered settings store n) :
    ∃ records, Lists settings store records ∧
      store.documentsBy (functions settings) "id" = records.map listed := by
  obtain ⟨unsorted, hids, hdocuments⟩ := exists_documents h
  have hmem : ∀ r, r ∈ unsorted.mergeSort (fun a b => decide (a.id ≤ b.id)) ↔ r ∈ unsorted :=
    fun r => List.mem_mergeSort
  refine ⟨_, ⟨pairwise_mergeSort_id hids, ?_⟩, ?_⟩
  · rintro ⟨collection, id⟩ fields
    constructor
    · rintro ⟨hfields, rfl⟩
      have hlisted := Store.mem_documents.mpr hfields
      rw [hdocuments] at hlisted
      obtain ⟨r, hr, heq⟩ := List.mem_map.mp hlisted
      obtain ⟨rfl, rfl⟩ := Prod.mk.inj heq
      exact ⟨r, (hmem r).mpr hr, rfl, rfl⟩
    · rintro ⟨r, hr, hkey, rfl⟩
      have hlisted : listed r ∈ store.documents (functions settings) := by
        rw [hdocuments]
        exact List.mem_map_of_mem ((hmem r).mp hr)
      rw [hkey]
      exact ⟨Store.mem_documents.mp hlisted, rfl⟩
  · have hvalue : ∀ r : FunctionRecord, (Json.field? (listed r).2 "id").map
        (fun v => (v, (listed r).1, (listed r).2)) = some (Json.int r.id, listed r) := by
      intro r
      rw [listed, FunctionRecord.field?_id]
      rfl
    rw [Store.documentsBy, hdocuments, List.filterMap_map]
    simp only [Function.comp_def, hvalue]
    rw [List.filterMap_eq_map', ← List.map_mergeSort, List.map_map]
    · rfl
    · intro a _ b _
      exact (valueLe_int a.id b.id).symm

theorem signaturePair_toFields (r : FunctionRecord) :
    signaturePair r.toFields = .ok (.str r.signature, r.id) := by
  simp [signaturePair, FunctionRecord.field?_signature, FunctionRecord.field?_id, toInteger, bind,
    Except.bind, pure, Except.pure]

theorem allSignatures_ok (h : WellNumbered settings client.store n) {stored : List (Json × Int)}
    (hread : perform (allSignatures settings) client = (.ok stored, after)) :
    ∃ records, Lists settings client.store records ∧
      stored = records.map (fun r => (.str r.signature, (r.id : Int))) ∧ Later client after := by
  obtain ⟨records, hlists, hdocuments⟩ := exists_lists h
  obtain ⟨found, mid, hquery, hpairs⟩ := perform_bind_eq_ok.mp hread
  obtain ⟨rfl, rfl⟩ := @Store.read_ok _ (.stream (functions settings))
    (·.documentsBy (functions settings) "id") _ _ _ hquery
  have hall : records.mapM (fun r => signaturePair (listed r).2) =
      (pure (records.map fun r => (.str r.signature, (r.id : Int))) : Except Failure _) := by
    simp only [listed, signaturePair_toFields]
    exact List.mapM_pure
  rw [Store.perform_liftM, hdocuments, Store.readStream, List.mapM_map, Function.comp_def,
    hall] at hpairs
  obtain ⟨hstored, rfl⟩ := Prod.mk.inj hpairs
  exact ⟨records, hlists, (Except.ok.inj hstored).symm, Store.later_note client _⟩

/-! ## Functions with their packages -/

theorem Lists.readable (h : Lists settings store records) : Readable settings store := by
  intro key fields hkey hfields
  obtain ⟨r, -, hkey, rfl⟩ := (h.get?_iff key fields).mp ⟨hfields, hkey⟩
  exact ⟨r, FunctionRecord.ofFields_toFields r, hkey⟩

theorem Lists.functionOf_eq (h : Lists settings store records) {r : FunctionRecord}
    (hr : r ∈ records) : functionOf settings store r.id = some r := by
  rw [functionOf, h.get?_eq hr, Option.bind_some, FunctionRecord.ofFields_toFields]
  rfl

/-- Functions that are asked for by their identifiers are all found, in this order. -/
theorem perform_getFunctions {start : Client} (hlater : Later start client)
    (hlists : Lists settings start.store records) {wanted : List FunctionRecord}
    (hwanted : wanted ⊆ records) (hne : wanted ≠ []) {arrange : List String → List String}
    (harrange : ∀ ids, (arrange ids).Perm ids) (hfate : fate .getAll client.faults 0 = none) :
    ∃ found after,
      perform (getFunctions settings (wanted.map fun r => (r.id : Int)) arrange) client =
        (.ok found, after) ∧
      Later client after ∧ List.Forall₂ (Shows settings start) wanted found := by
  let ids := wanted.map fun r => (r.id : Int)
  have hlists' : Lists settings client.store records := hlater.store_eq ▸ hlists
  have hfunctions : ids.filterMap (functionOf settings client.store) = wanted := by
    rw [List.filterMap_map]
    refine (List.filterMap_congr fun r hr => hlists'.functionOf_eq (hwanted hr)).trans ?_
    exact List.filterMap_some
  have hnote := Store.later_note client (.getAll (ids.map toString))
  have hnothing : ∀ id package, ([] : KnownPackages).lookup id = some package →
      Learns settings start id package :=
    fun _ _ h => absurd h (by simp)
  obtain ⟨found, after, hjoin, hafter, hjoins, -⟩ := perform_joinPackages (hlater.trans hnote)
    (fun _ => hlists'.readable.find?_answer) hnothing
  rw [hfunctions] at hjoins
  refine ⟨found, after, ?_, hnote.trans hafter, hjoins.imp fun _ _ => Joins.shows⟩
  have hids : ids ≠ [] := List.map_eq_nil_iff.not.mpr hne
  rw [perform_getFunctions_eq hlists'.readable hfate hids fun _ => (harrange _).mem_iff]
  exact hjoin

/-! ## Reading leaves the store alone -/

theorem later_allSignatures (settings : Settings) (stop : Option Store.Interruption) :
    Store.Keeps Later (allSignatures settings stop) := by
  refine Store.keeps_bind .trans ?_ fun documents => Store.keeps_liftM .refl _
  exact Store.later_read (.stream (functions settings)) (·.documentsBy (functions settings) "id")

theorem later_getPackage (settings : Settings) (id : String) :
    Store.Keeps Later (getPackage settings id) := by
  intro client
  obtain ⟨package, hget, -⟩ := perform_getPackage settings id client
  rw [hget]
  exact Store.later_note client _

theorem later_joinPackages (settings : Settings) (records : List FunctionRecord)
    (known : KnownPackages) (ids : List Int) :
    Store.Keeps Later (joinPackages settings records known ids) := by
  induction ids generalizing known with
  | nil => exact Store.keeps_pure .refl _
  | cons id rest ih =>
      rw [joinPackages]
      cases records.reverse.find? fun r => (r.id : Int) = id with
      | none => exact ih known
      | some r =>
          have hrest : ∀ p : Option Package.Record × KnownPackages, Store.Keeps Later (do
              let found ← joinPackages settings records p.2 rest
              return withPackage r p.1 :: found) :=
            fun p => Store.keeps_bind .trans (ih p.2) fun _ => Store.keeps_pure .refl _
          dsimp only
          cases known.lookup r.packageId with
          | some package => exact Store.keeps_bind .trans (Store.keeps_pure .refl _) hrest
          | none =>
              refine Store.keeps_bind .trans (later_getPackage settings r.packageId) fun _ => ?_
              exact Store.keeps_bind .trans (Store.keeps_pure .refl _) hrest

theorem later_getFunctions (settings : Settings) (ids : List Int)
    (arrange : List String → List String) :
    Store.Keeps Later (getFunctions settings ids arrange) := by
  rw [getFunctions]
  by_cases hnone : ids.isEmpty
  · rw [if_pos hnone]
    exact Store.keeps_pure .refl _
  · rw [if_neg hnone]
    refine Store.keeps_bind .trans ?_ fun documents =>
      Store.keeps_bind .trans (Store.keeps_liftM .refl _) fun records =>
        later_joinPackages settings records [] ids
    let texts := ids.map fun id => toString id
    exact Store.later_read (.getAll texts) fun store =>
      (arrange texts).filterMap fun id => store.get? ⟨functions settings, id⟩

end SignatureSearch.Database
