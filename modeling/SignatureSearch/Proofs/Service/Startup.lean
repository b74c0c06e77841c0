/-
# `Proofs.Service.Startup` — what the first load of the index comes to

Loading the first index has three outcomes (`load_outcomes`):

    true      all signatures were read, and their index is in the cache
    false     they could not be read, and the cache is what it was
    an error  they were read, but one of them cannot be indexed

The last one stops the service when it starts.  It happens just if a document
whose signature is no sequence of symbols was read with all the others; null is
such a signature (`load_stops`).
-/
import SignatureSearch.Proofs.Service.Loading

namespace SignatureSearch

/-! ## Signatures that can be indexed -/

namespace Signature

/-- What can be indexed as a signature: a text, a mapping, or a list that has neither lists nor
mappings in it. -/
inductive IsSignature : Json → Prop where
  | text (s : String) : IsSignature (.str s)
  | names (fields : Fields) : IsSignature (.obj fields)
  | items {items : List Json} :
      (∀ v ∈ items, (∀ more, v ≠ .arr more) ∧ ∀ fields, v ≠ .obj fields) → IsSignature (.arr items)

theorem exists_symbol_iff {v : Json} :
    (∃ x, Symbol.ofJson v = .ok x) ↔ (∀ more, v ≠ .arr more) ∧ ∀ fields, v ≠ .obj fields := by
  cases v with
  | arr items => exact iff_of_false (fun ⟨x, h⟩ => absurd h nofun) fun h => h.1 items rfl
  | obj fields => exact iff_of_false (fun ⟨x, h⟩ => absurd h nofun) fun h => h.2 fields rfl
  | null => exact iff_of_true ⟨_, rfl⟩ ⟨nofun, nofun⟩
  | bool b => exact iff_of_true ⟨_, rfl⟩ ⟨nofun, nofun⟩
  | int n => exact iff_of_true ⟨_, rfl⟩ ⟨nofun, nofun⟩
  | float x => exact iff_of_true ⟨_, rfl⟩ ⟨nofun, nofun⟩
  | str s => exact iff_of_true ⟨_, rfl⟩ ⟨nofun, nofun⟩

theorem exists_key_iff {v : Json} : (∃ key, Key.ofJson v = .ok key) ↔ IsSignature v := by
  constructor
  · rintro ⟨key, h⟩
    cases v with
    | str s => exact .text s
    | obj fields => exact .names fields
    | arr items =>
        exact .items fun v hv => exists_symbol_iff.mp (Store.exists_mapM_eq_ok_iff.mp ⟨key, h⟩ v hv)
    | null => exact absurd h nofun
    | bool b => exact absurd h nofun
    | int n => exact absurd h nofun
    | float x => exact absurd h nofun
  · intro h
    cases h with
    | text s => exact ⟨_, rfl⟩
    | names fields => exact ⟨_, rfl⟩
    | items hitems =>
        exact Store.exists_mapM_eq_ok_iff.mpr fun v hv => exists_symbol_iff.mpr (hitems v hv)

end Signature

namespace Service

open Database (allSignatures functions signaturePair)
open Signature (Index IsSignature Key)
open Store (Client Failure Interruption perform perform_bind_eq_ok)

variable {settings : Settings} {now : String} {stop : Option Interruption}

theorem exists_buildIndex_iff {stored : List (Json × Int)} :
    (∃ index, buildIndex stored = .ok index) ↔ ∀ pair ∈ stored, IsSignature pair.1 := by
  have hkeys : (∃ keys, stored.mapM (fun pair => (Key.ofJson pair.1).map (·, pair.2)) =
      (.ok keys : Except Signature.KeyError _)) ↔ ∀ pair ∈ stored, IsSignature pair.1 := by
    rw [Store.exists_mapM_eq_ok_iff]
    refine forall₂_congr fun pair _ => ?_
    rw [← Signature.exists_key_iff]
    cases Key.ofJson pair.1 <;> simp [Except.map]
  rw [← hkeys, buildIndex, Index.ofStored]
  generalize stored.mapM (fun pair => (Key.ofJson pair.1).map (·, pair.2)) = keys
  cases keys <;> simp [Except.map, Except.mapError]

/-! ## What is read -/

/-- A stored function that is loaded, and its signature. -/
def Loads (settings : Settings) (store : Store) (signature : Json) : Prop :=
  ∃ key fields, key.collection = functions settings ∧ store.get? key = some fields ∧
    (Json.field? fields "id").isSome ∧ Json.field? fields "typeSignature" = some signature

theorem mapM_of_readStream {α : Type} {read : String × Fields → Except Failure α}
    {documents : List (String × Fields)} {found : List α}
    (h : Store.readStream read documents stop = .ok found) : documents.mapM read = .ok found := by
  cases stop with
  | none => exact h
  | some stop =>
      obtain ⟨first, hfirst, h⟩ := Store.bind_eq_ok.mp h
      by_cases hshort : documents.length < stop.after
      · rw [if_pos hshort] at h
        obtain rfl := Except.ok.inj h
        rwa [List.take_of_length_le hshort.le] at hfirst
      · rw [if_neg hshort] at h
        exact absurd h nofun

/-- The signatures that a bulk load returns are those of the stored functions. -/
theorem exists_mem_allSignatures_iff {client after : Client} {stored : List (Json × Int)}
    (h : perform (allSignatures settings stop) client = (.ok stored, after)) {signature : Json} :
    (∃ id, (signature, id) ∈ stored) ↔ Loads settings client.store signature := by
  obtain ⟨documents, mid, hquery, hread⟩ := perform_bind_eq_ok.mp h
  obtain ⟨rfl, rfl⟩ := @Store.read_ok _ (.stream (functions settings))
    (·.documentsBy (functions settings) "id") _ _ _ hquery
  rw [Store.perform_liftM] at hread
  have hall := mapM_of_readStream (Prod.mk.inj hread).1
  constructor
  · rintro ⟨id, hmem⟩
    obtain ⟨⟨documentId, fields⟩, hdocument, hpair⟩ := Store.exists_of_mem_mapM hall hmem
    obtain ⟨hfields, hid⟩ := mem_documentsBy.mp hdocument
    exact ⟨_, fields, rfl, hfields, hid, signaturePair_eq_ok hpair⟩
  · rintro ⟨⟨collection, documentId⟩, fields, hcollection, hfields, hid, hsignature⟩
    obtain rfl : collection = functions settings := hcollection
    obtain ⟨⟨signature', id⟩, hmem, hpair⟩ :=
      Store.exists_mem_of_mapM hall (mem_documentsBy.mpr ⟨hfields, hid⟩)
    obtain rfl := Option.some.inj ((signaturePair_eq_ok hpair).symm.trans hsignature)
    exact ⟨id, hmem⟩

/-! ## Starting -/

/-- The service starts with the generation that loading leaves, if loading does not fail. -/
theorem run_start (settings : Settings) (now : String) (s : Service) :
    (start settings now).run s =
      (((load settings now).run s).1.map fun _ => ((load settings now).run s).2.cache.generation,
        ((load settings now).run s).2) := by
  rw [start, run_bind]
  generalize (load settings now).run s = outcome
  obtain ⟨failure | loaded, after⟩ := outcome <;> rfl

/-- What loading the first index comes to.  The index of all signatures is put into the cache, or
the cache stays what it is.  Loading fails, and with it the start of the service, just if all
stored functions were read and the signature of one of them cannot be indexed. -/
theorem load_outcomes {s after : Service} {result : Except Failure Bool}
    (hload : (load settings now stop).run s = (result, after)) :
    (match result with
      | .ok true => ∃ stored index,
          ((database (allSignatures settings stop)).run s).1 = .ok stored ∧
          buildIndex stored = .ok index ∧ after.cache.index = index ∧
          after.cache.generation = s.cache.generation + 1 ∧ after.cache.replacedAt = some now
      | .ok false => after.cache = s.cache ∧
          ∃ failure, ((database (allSignatures settings stop)).run s).1 = .error failure
      | .error _ => after.cache = s.cache) ∧
    ((∃ failure, result = .error failure) ↔
      (∃ stored, ((database (allSignatures settings stop)).run s).1 = .ok stored) ∧
      ∃ signature, Loads settings s.client.store signature ∧ ¬ IsSignature signature) ∧
    (stop = none →
      (start settings now).run s = (result.map fun _ => after.cache.generation, after)) := by
  have hcache := (looked_database (Database.later_allSignatures settings stop) s).cache_eq
  have hreloaded := reloaded settings now stop s
  have hstart : stop = none →
      (start settings now).run s = (result.map fun _ => after.cache.generation, after) := by
    rintro rfl
    rw [run_start, hload]
  have hunread : ∀ {stored}, ((database (allSignatures settings stop)).run s).1 = .ok stored →
      ((∃ signature, Loads settings s.client.store signature ∧ ¬ IsSignature signature) ↔
        ∀ index, buildIndex stored ≠ .ok index) := by
    intro stored hread
    have hperform : perform (allSignatures settings stop) s.client = (.ok stored, _) :=
      Prod.ext (database_eq_ok hread).2 rfl
    rw [← not_exists, exists_buildIndex_iff]
    push Not
    constructor
    · rintro ⟨signature, hloads, hnot⟩
      obtain ⟨id, hmem⟩ := (exists_mem_allSignatures_iff hperform).mpr hloads
      exact ⟨_, hmem, hnot⟩
    · rintro ⟨⟨signature, id⟩, hmem, hnot⟩
      exact ⟨signature, (exists_mem_allSignatures_iff hperform).mp ⟨id, hmem⟩, hnot⟩
  rw [load, run_bind] at hload
  generalize (reload settings now stop).run s = outcome at hreloaded hload
  cases hreloaded with
  | unread hread =>
      obtain ⟨rfl, rfl⟩ := Prod.mk.inj hload
      refine ⟨⟨hcache, _, hread⟩, iff_of_false nofun ?_, hstart⟩
      rintro ⟨⟨stored, hstored⟩, -⟩
      exact absurd (hread.symm.trans hstored) nofun
  | unbuilt hread hbuild =>
      obtain ⟨rfl, rfl⟩ := Prod.mk.inj hload
      have hstopped := (hunread hread).mpr fun index h => absurd (hbuild.symm.trans h) nofun
      exact ⟨hcache, iff_of_true ⟨_, rfl⟩ ⟨⟨_, hread⟩, hstopped⟩, hstart⟩
  | installed hread hbuild =>
      obtain ⟨rfl, rfl⟩ := Prod.mk.inj hload
      refine ⟨⟨_, _, hread, hbuild, rfl, rfl, rfl⟩, iff_of_false nofun ?_, hstart⟩
      rintro ⟨-, hstopped⟩
      exact (hunread hread).mp hstopped _ hbuild

/-- A store with one function, whose signature may be anything. -/
def storing (signature : Json) : Service where
  client := ⟨⟨[(Database.functionKey {} 0, [("id", .int 0), ("packageId", .str "x__y"),
    ("name", .str "f"), ("typeSignature", signature)])], List.nodup_singleton _⟩, [], []⟩
  cache := .empty

/-- A signature that is a text is loaded. -/
theorem load_outcomes_sample :
    let outcome := (load {} "now").run (storing (.str "Int"))
    outcome.1 = .ok true ∧ outcome.2.cache.generation = 1 ∧
      ((start {} "now").run (storing (.str "Int"))).1 = .ok 1 := by
  intro outcome
  have hresult : outcome.1 = .ok true := by decide +kernel
  have hload : (load {} "now").run (storing (.str "Int")) = (.ok true, outcome.2) :=
    Prod.ext hresult rfl
  obtain ⟨⟨stored, index, -, -, -, hgeneration, -⟩, -, hstart⟩ := load_outcomes hload
  refine ⟨hresult, hgeneration, ?_⟩
  rw [hstart rfl, hgeneration]
  rfl

/-- A signature that is null: it is read, and then it stops the service. -/
theorem load_stops :
    let outcome := (load {} "now").run (storing .null)
    (∃ stored, ((database (allSignatures {})).run (storing .null)).1 = .ok stored) ∧
      outcome.1 = .error (.unindexable (.notIterable "NoneType")) ∧
      ((start {} "now").run (storing .null)).1 =
        .error (.unindexable (.notIterable "NoneType")) :=
  ⟨⟨[(.null, 0)], by decide +kernel⟩, by decide +kernel, by decide +kernel⟩

end Service
end SignatureSearch
