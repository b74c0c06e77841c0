/-
# `Proofs.Service.Loading` — what loading the index does

Loading reads all signatures in bulk.  If the stream is read to its end and the
signatures can be indexed, their index is put into the cache; else the cache
stays as it is (`Reloaded`).  An update answers with success in the first case
only (`run_update`).

What is stored as a signature may be anything.  Where all of it are texts, as in
every store that replacing functions leads to, whatever was read can be indexed.
-/
import SignatureSearch.Proofs.Database.Lookup
import SignatureSearch.Proofs.Database.Replacement
import SignatureSearch.Service.Api

namespace SignatureSearch.Service

open Database (Reachable allSignatures functions signaturePair)
open Signature (Index Pair)
open Store (Action Client Failure Interruption Keeps Later perform perform_bind_eq_ok)

variable {settings : Settings} {stop : Option Interruption} {s : Service}

/-! ## Parts of a handler -/

theorem run_bind {α β : Type} (job : StateM Service α) (next : α → StateM Service β)
    (s : Service) : (job >>= next).run s = (next (job.run s).1).run (job.run s).2 := rfl

theorem run_get (s : Service) : (get : StateM Service Service).run s = (s, s) := rfl

theorem run_database {α : Type} (action : Action α) (hkey : s.missingKey = none) :
    (database action).run s =
      ((perform action s.client).1, { s with client := (perform action s.client).2 }) := by
  obtain ⟨client, cache, key⟩ := s
  obtain rfl : key = none := hkey
  rfl

theorem database_eq_ok {α : Type} {action : Action α} {a : α}
    (h : ((database action).run s).1 = .ok a) :
    s.missingKey = none ∧ (perform action s.client).1 = .ok a := by
  cases hkey : s.missingKey with
  | some keyFile =>
      rw [database, run_bind, run_get] at h
      simp only [hkey] at h
      exact absurd h nofun
  | none =>
      rw [run_database action hkey] at h
      exact ⟨rfl, h⟩

/-- From one state to the other the store was read at most. -/
structure Looked (before after : Service) : Prop where
  cache_eq : after.cache = before.cache
  store_eq : after.client.store = before.client.store

theorem Looked.refl (s : Service) : Looked s s := ⟨rfl, rfl⟩

theorem looked_database {α : Type} {action : Action α} (h : Keeps Later action) (s : Service) :
    Looked s ((database action).run s).2 := by
  cases hkey : s.missingKey with
  | some keyFile =>
      rw [database, run_bind, run_get]
      simp only [hkey]
      exact .refl s
  | none =>
      rw [run_database action hkey]
      exact ⟨rfl, (h s.client).store_eq⟩

/-! ## What a bulk load returns -/

def storedPairs (pairs : List (Pair Int)) : List (Json × Int) :=
  pairs.map fun pair => (.str pair.1, pair.2)

theorem storedPairs_injective : Function.Injective storedPairs :=
  List.map_injective_iff.mpr fun p q h => by
    obtain ⟨hsignature, hid⟩ := Prod.mk.inj h
    exact Prod.ext (Json.str.inj hsignature) hid

/-- Where a function has a signature, it is a text. -/
def TextSignatures (settings : Settings) (store : Store) : Prop :=
  ∀ key fields v, key.collection = functions settings → store.get? key = some fields →
    Json.field? fields "typeSignature" = some v → ∃ text, v = .str text

theorem signaturePair_eq_ok {fields : Fields} {v : Json} {id : Int}
    (h : signaturePair fields = .ok (v, id)) : Json.field? fields "typeSignature" = some v := by
  obtain ⟨signature, hsignature, h⟩ := Store.bind_eq_ok.mp h
  obtain ⟨n, -, h⟩ := Store.bind_eq_ok.mp h
  obtain ⟨m, -, h⟩ := Store.bind_eq_ok.mp h
  obtain ⟨rfl, rfl⟩ := Prod.mk.inj (Except.ok.inj h)
  cases hfield : Json.field? fields "typeSignature" with
  | none => simp [hfield] at hsignature
  | some v => simpa [hfield] using hsignature

theorem exists_of_mem_readStream {α : Type} {read : String × Fields → Except Failure α}
    {documents : List (String × Fields)} {stop : Option Interruption} {found : List α}
    (h : Store.readStream read documents stop = .ok found) {a : α} (ha : a ∈ found) :
    ∃ d ∈ documents, read d = .ok a := by
  cases stop with
  | none => exact Store.exists_of_mem_mapM h ha
  | some stop =>
      obtain ⟨first, hfirst, h⟩ := Store.bind_eq_ok.mp h
      have hsame : first = found := by
        by_cases hshort : documents.length < stop.after
        · simpa [hshort, pure, Except.pure] using h
        · simp [hshort, throw, throwThe, MonadExceptOf.throw] at h
      subst hsame
      obtain ⟨d, hd, hread⟩ := Store.exists_of_mem_mapM hfirst ha
      exact ⟨d, List.mem_of_mem_take hd, hread⟩

theorem mem_documentsBy {store : Store} {collection field id : String} {fields : Fields} :
    (id, fields) ∈ store.documentsBy collection field ↔
      store.get? ⟨collection, id⟩ = some fields ∧ (Json.field? fields field).isSome := by
  rw [Store.documentsBy, List.mem_map, Option.isSome_iff_exists, ← Store.mem_documents]
  constructor
  · rintro ⟨⟨v, id', fields'⟩, hmem, heq⟩
    obtain ⟨rfl, rfl⟩ := Prod.mk.inj heq
    obtain ⟨⟨id'', fields''⟩, hdocument, hvalue⟩ :=
      List.mem_filterMap.mp (List.mem_mergeSort.mp hmem)
    obtain ⟨w, hw, heq⟩ := Option.map_eq_some_iff.mp hvalue
    obtain ⟨rfl, rfl, rfl⟩ := (by simpa using heq : w = v ∧ id'' = id' ∧ fields'' = fields')
    exact ⟨hdocument, w, hw⟩
  · rintro ⟨hdocument, v, hv⟩
    refine ⟨(v, id, fields), List.mem_mergeSort.mpr (List.mem_filterMap.mpr ?_), rfl⟩
    exact ⟨(id, fields), hdocument, Option.map_eq_some_iff.mpr ⟨v, hv, rfl⟩⟩

/-- Of a store in which all signatures are texts, a bulk load returns pairs of a text each. -/
theorem exists_storedPairs {stop : Option Interruption} {client after : Client}
    (htexts : TextSignatures settings client.store) {stored : List (Json × Int)}
    (h : perform (Database.allSignatures settings stop) client = (.ok stored, after)) :
    ∃ pairs, stored = storedPairs pairs := by
  obtain ⟨documents, mid, hquery, hread⟩ := perform_bind_eq_ok.mp h
  obtain ⟨rfl, rfl⟩ := @Store.read_ok _ (.stream (functions settings))
    (·.documentsBy (functions settings) "id") _ _ _ hquery
  rw [Store.perform_liftM] at hread
  have hrange : stored ∈ Set.range storedPairs := by
    rw [show storedPairs = List.map fun pair => (Json.str pair.1, pair.2) from rfl,
      Set.range_list_map]
    rintro ⟨v, id⟩ hmem
    obtain ⟨⟨documentId, fields⟩, hdocument, hpair⟩ :=
      exists_of_mem_readStream (Prod.mk.inj hread).1 hmem
    obtain ⟨text, rfl⟩ := htexts _ fields v rfl (mem_documentsBy.mp hdocument).1
      (signaturePair_eq_ok hpair)
    exact ⟨(text, id), rfl⟩
  obtain ⟨pairs, hpairs⟩ := hrange
  exact ⟨pairs, hpairs.symm⟩

theorem textSignatures_of_reachable {store : Store} (h : Reachable settings store) :
    TextSignatures settings store := by
  obtain ⟨n, hn⟩ := h.wellNumbered
  intro key fields v hkey hfields hv
  obtain ⟨r, -, -, rfl⟩ := hn.documents key fields hkey hfields
  rw [FunctionRecord.field?_signature] at hv
  exact ⟨r.signature, (Option.some.inj hv).symm⟩

theorem buildIndex_texts (pairs : List (Pair Int)) :
    buildIndex (pairs.map fun pair => (.str pair.1, pair.2)) = .ok (Index.build pairs) := by
  have hkeys : (pairs.map fun pair => (Json.str pair.1, pair.2)).mapM (fun pair =>
      (Signature.Key.ofJson pair.1).map (·, pair.2)) =
        (pure (pairs.map fun pair => (.ofText pair.1, pair.2)) :
          Except Signature.KeyError (List (Signature.Key × Int))) := by
    rw [List.mapM_map]
    exact List.mapM_pure
  rw [buildIndex, Index.ofStored, hkeys]
  rfl

/-! ## Loading -/

/-- What loading the index does to a state. -/
inductive Reloaded (settings : Settings) (now : String) (stop : Option Interruption) (s : Service) :
    Load × Service → Prop where
  | installed {stored : List (Json × Int)} {index : Index Int} :
      ((database (allSignatures settings stop)).run s).1 = .ok stored →
      buildIndex stored = .ok index →
      Reloaded settings now stop s (.installed (s.cache.replace now index),
        { ((database (allSignatures settings stop)).run s).2 with
          cache := s.cache.replace now index })
  | unread {failure : Failure} :
      ((database (allSignatures settings stop)).run s).1 = .error failure →
      Reloaded settings now stop s
        (.unread failure, ((database (allSignatures settings stop)).run s).2)
  | unbuilt {stored : List (Json × Int)} {failure : Failure} :
      ((database (allSignatures settings stop)).run s).1 = .ok stored →
      buildIndex stored = .error failure →
      Reloaded settings now stop s
        (.unbuilt failure, ((database (allSignatures settings stop)).run s).2)

theorem reloaded (settings : Settings) (now : String) (stop : Option Interruption) (s : Service) :
    Reloaded settings now stop s ((reload settings now stop).run s) := by
  have hcache := (looked_database (Database.later_allSignatures settings stop) s).cache_eq
  rw [reload, run_bind]
  cases hread : ((database (allSignatures settings stop)).run s).1 with
  | error failure => exact .unread hread
  | ok stored =>
      dsimp only
      cases hbuild : buildIndex stored with
      | error failure => exact .unbuilt hread hbuild
      | ok index =>
          have hinstalled := @Reloaded.installed settings now stop s stored index hread hbuild
          rw [← hcache] at hinstalled
          exact hinstalled

/-- Where all signatures are texts, the index of what was read is put into the cache, if anything
was read. -/
theorem reload_texts (htexts : TextSignatures settings s.client.store) (now : String)
    (stop : Option Interruption) :
    (∃ pairs after, ((database (allSignatures settings stop)).run s).1 = .ok (storedPairs pairs) ∧
      (reload settings now stop).run s = (.installed after.cache, after) ∧
      after.cache = s.cache.replace now (.build pairs)) ∨
    (∃ failure after, ((database (allSignatures settings stop)).run s).1 = .error failure ∧
      (reload settings now stop).run s = (.unread failure, after) ∧ after.cache = s.cache) := by
  have hcache := (looked_database (Database.later_allSignatures settings stop) s).cache_eq
  have hreloaded := reloaded settings now stop s
  generalize (reload settings now stop).run s = outcome at hreloaded ⊢
  have hpairs : ∀ {stored}, ((database (allSignatures settings stop)).run s).1 = .ok stored →
      ∃ pairs, stored = storedPairs pairs ∧ buildIndex stored = .ok (.build pairs) := by
    intro stored hread
    obtain ⟨pairs, rfl⟩ :=
      exists_storedPairs htexts (Prod.ext (database_eq_ok hread).2 rfl)
    exact ⟨pairs, rfl, buildIndex_texts pairs⟩
  cases hreloaded with
  | unread hread => exact Or.inr ⟨_, _, hread, rfl, hcache⟩
  | unbuilt hread hbuild =>
      obtain ⟨pairs, rfl, htext⟩ := hpairs hread
      exact absurd (htext.symm.trans hbuild) nofun
  | installed hread hbuild =>
      obtain ⟨pairs, rfl, htext⟩ := hpairs hread
      obtain rfl := Except.ok.inj (htext.symm.trans hbuild)
      exact Or.inl ⟨pairs, { ((database (allSignatures settings stop)).run s).2 with
        cache := s.cache.replace now (.build pairs) }, hread, rfl, rfl⟩

theorem reload_store (settings : Settings) (now : String) (stop : Option Interruption)
    (s : Service) : ((reload settings now stop).run s).2.client.store = s.client.store := by
  have hstore := (looked_database (Database.later_allSignatures settings stop) s).store_eq
  have hreloaded := reloaded settings now stop s
  generalize (reload settings now stop).run s = outcome at hreloaded ⊢
  cases hreloaded <;> exact hstore

/-- An index that was put into the cache is that of all signatures in the store. -/
theorem reload_installed {now : String} {s₀ : Service} {cache : Signature.Cache Int}
    (h : (reload settings now stop).run s₀ = (.installed cache, s)) :
    s₀.missingKey = none ∧ ∃ stored client index,
      perform (allSignatures settings stop) s₀.client = (.ok stored, client) ∧
      buildIndex stored = .ok index ∧
      s = { client, cache := s₀.cache.replace now index } := by
  have hreloaded := reloaded settings now stop s₀
  rw [h] at hreloaded
  cases hreloaded with
  | @installed stored index hread hbuild =>
      obtain ⟨hkey, hperform⟩ := database_eq_ok hread
      refine ⟨hkey, stored, _, index, Prod.ext hperform rfl, hbuild, ?_⟩
      rw [run_database _ hkey, hkey]

/-- An update reports on the cache that it leaves, or else that it failed. -/
def Reports (reply : Reply) : Load → Prop
  | .installed cache =>
    reply = .ok (.obj [("success", .bool true), ("signatures", .int cache.index.signatureCount),
      ("functions", .int cache.index.size), ("generation", .int cache.generation),
      ("updated_at", .ofOption cache.replacedAt)])
  | _ => reply.status ≠ 200

theorem run_update (settings : Settings) (clock : Clock) (stop : Option Interruption)
    (s : Service) : ∃ reply, Reports reply ((reload settings clock.now stop).run s).1 ∧
      (update settings clock stop).run s =
        (reply, ((reload settings clock.now stop).run s).2) := by
  rw [update, run_bind]
  generalize (reload settings clock.now stop).run s = outcome
  obtain ⟨load, after⟩ := outcome
  cases load with
  | unread failure =>
      cases failure with
      | unavailable keyFile => exact ⟨_, by simp [Reports, Reply.internal], rfl⟩
      | _ => exact ⟨_, by simp [Reports, Reply.fault], rfl⟩
  | unbuilt failure => exact ⟨_, by simp [Reports, Reply.internal], rfl⟩
  | installed cache => exact ⟨_, rfl, rfl⟩

theorem update_ok {clock : Clock} {s₀ : Service} {reply : Reply}
    (hupdate : (update settings clock stop).run s₀ = (reply, s)) (hok : reply.status = 200) :
    ∃ cache, (reload settings clock.now stop).run s₀ = (.installed cache, s) := by
  obtain ⟨reply', hreports, hrun⟩ := run_update settings clock stop s₀
  obtain ⟨rfl, rfl⟩ := Prod.mk.inj (hrun.symm.trans hupdate)
  cases hload : ((reload settings clock.now stop).run s₀).1 with
  | installed cache => exact ⟨cache, Prod.ext hload rfl⟩
  | _ =>
      rw [hload] at hreports
      exact absurd hok hreports

end SignatureSearch.Service
