/-
# `Proofs.Service.Paging` — all pages of a signature show all its functions

After the index was built anew, and as long as nothing is written, the service
answers from the functions that are stored (`Serves`).  A page is then a piece
of the list of those with the signature (`Serves.search_page`), and going from
page to page until one is empty (`Browse`) shows this list from its beginning to
its end (`Serves.browse`).
-/
import SignatureSearch.Proofs.Database.Lookup
import SignatureSearch.Proofs.Database.Replacement
import SignatureSearch.Proofs.Service.Loading
import SignatureSearch.Proofs.Signature.Multimap

namespace SignatureSearch.Service

open Database (Lists Shows Reachable functions functionKey)
open Signature (Index)
open Store (Action Client Failure Later perform fate)

variable {settings : Settings} {start : Client} {records : List FunctionRecord} {s : Service}

/-! ## Pages -/

def withSignature (records : List FunctionRecord) (signature : String) : List FunctionRecord :=
  records.filter (·.signature = signature)

theorem idsFor_records (records : List FunctionRecord) (signature : String) :
    Index.idsFor (records.map fun r => (r.signature, (r.id : Int))) signature =
      (withSignature records signature).map fun r => (r.id : Int) := by
  rw [Index.idsFor, List.filterMap_map, withSignature, ← List.filterMap_eq_map,
    List.filterMap_filter]
  refine List.filterMap_congr fun r _ => ?_
  simp

theorem get?_iff_withSignature {store : Store} (h : Lists settings store records)
    (signature : String) (key : DocumentKey) (fields : Fields) :
    store.get? key = some fields ∧ key.collection = functions settings ∧
        Json.field? fields "typeSignature" = some (.str signature) ↔
      ∃ r ∈ withSignature records signature,
        key = functionKey settings r.id ∧ fields = r.toFields := by
  rw [← and_assoc, h.get?_iff]
  constructor
  · rintro ⟨⟨r, hr, hkey, rfl⟩, hsignature⟩
    have heq : r.signature = signature := by
      simpa [FunctionRecord.field?_signature] using hsignature
    exact ⟨r, List.mem_filter.mpr ⟨hr, decide_eq_true heq⟩, hkey, rfl⟩
  · rintro ⟨r, hr, hkey, rfl⟩
    obtain ⟨hr, heq⟩ := List.mem_filter.mp hr
    refine ⟨⟨r, hr, hkey, rfl⟩, ?_⟩
    rw [FunctionRecord.field?_signature, of_decide_eq_true heq]

/-- The service answers from the functions that were stored when a client was as `start` says; since
then the store was only read. -/
structure Serves (start : Client) (records : List FunctionRecord) (s : Service) : Prop where
  keyed : s.missingKey = none
  index_eq : s.cache.index = .ofRecords records
  later : Later start s.client

namespace Serves

variable {clock : Clock} {signature : String} {limit offset : Nat}
  {arrange : List String → List String}

theorem ids (h : Serves start records s) (hmax : limit ≤ settings.maxPageSize)
    (signature : String) (offset : Nat) :
    s.cache.search signature (pageSize settings (some limit) settings.searchPageSize)
        (some (offset : Int)) =
      .ok (if (withSignature records signature).length ≤ offset then none
        else some ((((withSignature records signature).drop offset).take limit).map
          fun r => (r.id : Int))) := by
  have hsize : pageSize settings (some limit) settings.searchPageSize = (limit : Int) :=
    min_eq_left (Int.ofNat_le.mpr hmax)
  have hsearch := (Index.agrees_build (records.map fun r => (r.signature, (r.id : Int)))).search_eq
    signature limit (some offset)
  rw [idsFor_records, List.length_map, ← List.map_drop, ← List.map_take] at hsearch
  rw [hsize, Signature.Cache.search, h.index_eq]
  exact hsearch

theorem search_end (h : Serves start records s) (hmax : limit ≤ settings.maxPageSize)
    (hend : (withSignature records signature).length ≤ offset) :
    (search settings clock signature ⟨some limit, some offset⟩ arrange).run s =
      (.ok (.arr []), s) := by
  have hids := h.ids hmax signature offset
  rw [if_pos hend] at hids
  rw [search, run_bind, run_get]
  dsimp only
  rw [hids]
  rfl

def shown (f : FoundFunction) : Json :=
  .obj f.toFields

theorem search_page (h : Serves start records s) (hlists : Lists settings start.store records)
    (harrange : ∀ ids, (arrange ids).Perm ids) (hreads : ∀ n, fate .getAll start.faults n = none)
    (hlimit : 1 ≤ limit) (hmax : limit ≤ settings.maxPageSize)
    (hbefore : offset < (withSignature records signature).length) :
    ∃ found s', (search settings clock signature ⟨some limit, some offset⟩ arrange).run s =
        (.ok (.arr (found.map shown)), s') ∧ Serves start records s' ∧
      List.Forall₂ (Shows settings start)
        (((withSignature records signature).drop offset).take limit) found := by
  have hids := h.ids hmax signature offset
  rw [if_neg (Nat.not_le.mpr hbefore)] at hids
  have hwanted : ((withSignature records signature).drop offset).take limit ⊆ records := by
    intro r hr
    exact List.mem_of_mem_filter (List.mem_of_mem_drop (List.mem_of_mem_take hr))
  have hne : ((withSignature records signature).drop offset).take limit ≠ [] := by
    rw [← List.length_pos_iff, List.length_take, List.length_drop]
    omega
  have hfate : fate .getAll s.client.faults 0 = none := by
    obtain ⟨m, hm⟩ := h.later.fate_eq .getAll 0
    exact hm.trans (hreads m)
  obtain ⟨found, client, hget, hlater, hshows⟩ :=
    Database.perform_getFunctions h.later hlists hwanted hne harrange hfate
  refine ⟨found, { s with client }, ?_, ⟨h.keyed, h.index_eq, h.later.trans hlater⟩, hshows⟩
  rw [search, run_bind, run_get]
  dsimp only
  rw [hids]
  dsimp only
  rw [run_bind, run_database _ h.keyed, hget]
  rfl

end Serves

/-! ## From page to page -/

/-- Asks for one page after the other, from the k-th on, until one is empty; the pages before. -/
inductive Browse (ask : Nat → StateM Service Reply) : Nat → Service → List (List Json) → Service →
    Prop where
  | done {k : Nat} {s : Service} : ((ask k).run s).1 = .ok (.arr []) →
      Browse ask k s [] ((ask k).run s).2
  | page {k : Nat} {s last : Service} {page : List Json} {pages : List (List Json)} :
      ((ask k).run s).1 = .ok (.arr page) → page ≠ [] →
      Browse ask (k + 1) ((ask k).run s).2 pages last → Browse ask k s (page :: pages) last

theorem page_inj {page page' : List Json} (h : Reply.ok (.arr page) = Reply.ok (.arr page')) :
    page = page' :=
  Json.arr.inj (congrArg Reply.body h)

theorem Browse.unique {ask : Nat → StateM Service Reply} {k : Nat} {s last last' : Service}
    {pages pages' : List (List Json)} (h : Browse ask k s pages last)
    (h' : Browse ask k s pages' last') : pages = pages' ∧ last = last' := by
  induction h generalizing pages' with
  | done hreply =>
      cases h' with
      | done _ => exact ⟨rfl, rfl⟩
      | page hreply' hne _ => exact absurd (page_inj (hreply'.symm.trans hreply)) hne
  | page hreply hne _ ih =>
      cases h' with
      | done hreply' => exact absurd (page_inj (hreply.symm.trans hreply')) hne
      | page hreply' _ hbrowse' =>
          obtain rfl := page_inj (hreply.symm.trans hreply')
          obtain ⟨rfl, rfl⟩ := ih hbrowse'
          exact ⟨rfl, rfl⟩

theorem length_eq_limit {R : FunctionRecord → FoundFunction → Prop} {k limit : Nat}
    {first rest : List FoundFunction}
    (hfirst : List.Forall₂ R ((records.drop (k * limit)).take limit) first)
    (hrest : List.Forall₂ R (records.drop ((k + 1) * limit)) rest) (hmore : rest ≠ []) :
    first.length = limit := by
  have hlength := hfirst.length_eq
  have hpos := List.length_pos_iff.mpr hmore
  rw [List.length_take, List.length_drop] at hlength
  rw [← hrest.length_eq, List.length_drop, Nat.succ_mul] at hpos
  omega

theorem Serves.browse {times : Nat → Clock} {signature : String} {limit : Nat}
    {arrange : Nat → List String → List String} (h : Serves start records s)
    (hlists : Lists settings start.store records)
    (harrange : ∀ k ids, (arrange k ids).Perm ids)
    (hreads : ∀ n, fate .getAll start.faults n = none) (hlimit : 1 ≤ limit)
    (hmax : limit ≤ settings.maxPageSize) (k : Nat) :
    ∃ pages last found,
      Browse (fun k => search settings (times k) signature
        ⟨some limit, some (k * limit : Nat)⟩ (arrange k)) k s pages last ∧
      Serves start records last ∧ pages.flatten = found.map shown ∧
      (∀ page ∈ pages.dropLast, page.length = limit) ∧
      List.Forall₂ (Shows settings start)
        ((withSignature records signature).drop (k * limit)) found := by
  -- By induction on how many functions are left.
  generalize hleft : (withSignature records signature).length - k * limit = left
  induction left using Nat.strong_induction_on generalizing k s with
  | _ left ih =>
      by_cases hend : (withSignature records signature).length ≤ k * limit
      · have hrun := @search_end _ _ _ _ (times k) _ _ _ (arrange k) h hmax hend
        refine ⟨[], _, [], .done (congrArg Prod.fst hrun), ?_, rfl, nofun, ?_⟩
        · rw [hrun]
          exact h
        · rw [List.drop_eq_nil_of_le hend]
          exact .nil
      · have hbefore := Nat.not_le.mp hend
        obtain ⟨first, next, hrun, hnext, hfirst⟩ := h.search_page hlists (harrange k) hreads
          hlimit hmax hbefore
        have hnextleft : (withSignature records signature).length - (k + 1) * limit < left := by
          rw [Nat.succ_mul]
          omega
        obtain ⟨pages, last, rest, hbrowse, hlast, hflatten, hfull, hrest⟩ :=
          ih _ hnextleft hnext (k + 1) rfl
        have hlength := hfirst.length_eq
        rw [List.length_take, List.length_drop] at hlength
        refine ⟨first.map shown :: pages, last, first ++ rest,
          .page (congrArg Prod.fst hrun) ?_ (hrun ▸ hbrowse), hlast, ?_, ?_, ?_⟩
        · rw [ne_eq, List.map_eq_nil_iff, ← List.length_eq_zero_iff]
          omega
        · rw [List.flatten_cons, hflatten, List.map_append]
        · intro page hpage
          cases hbrowse with
          | done _ => exact absurd hpage List.not_mem_nil
          | page _ hne _ =>
              rw [List.dropLast_cons_cons] at hpage
              rcases List.mem_cons.mp hpage with rfl | hpage
              · -- The page after this one is not empty.
                have hmore : rest ≠ [] := by
                  rintro rfl
                  exact hne (List.append_eq_nil_iff.mp hflatten).1
                rw [List.length_map]
                exact length_eq_limit hfirst hrest hmore
              · exact hfull page hpage
        · rw [← List.take_append_drop limit (List.drop _ _), List.drop_drop, ← Nat.succ_mul]
          exact List.rel_append hfirst hrest

/-- **Search agrees with the store.**  After an update that went well, all pages of a signature
together show each stored function with this signature once, in the order of the identifiers, and
all pages but the last one are full.  An entry shows what the document of the function says, and the
name and the address of its package.  The store may answer in any order. -/
theorem browse_complete {clock : Clock} {times : Nat → Clock} {s₀ : Service} {reply : Reply}
    {signature : String} {limit : Nat} {arrange : Nat → List String → List String}
    (hreachable : Reachable settings s₀.client.store)
    (hupdate : (update settings clock).run s₀ = (reply, s)) (hok : reply.status = 200)
    (hlimit : 1 ≤ limit) (hmax : limit ≤ settings.maxPageSize)
    (harrange : ∀ k ids, (arrange k ids).Perm ids)
    (hreads : ∀ n, fate .getAll s.client.faults n = none) :
    let ask k := search settings (times k) signature ⟨some limit, some (k * limit : Nat)⟩ (arrange k)
    (∃ pages last, Browse ask 0 s pages last) ∧
    ∀ pages last, Browse ask 0 s pages last →
      last.client.store = s₀.client.store ∧ (∀ page ∈ pages.dropLast, page.length = limit) ∧
      ∃ (records : List FunctionRecord) (found : List FoundFunction),
        (∀ key fields,
          s₀.client.store.get? key = some fields ∧ key.collection = functions settings ∧
              Json.field? fields "typeSignature" = some (.str signature) ↔
            ∃ r ∈ records, key = functionKey settings r.id ∧
              fields = [("id", .int r.id), ("packageId", .str r.packageId), ("name", .str r.name),
                ("typeSignature", .str r.signature), ("moduleName", .ofOption r.moduleName)]) ∧
        records.Pairwise (fun a b => a.id < b.id) ∧
        pages.flatten = found.map (fun f => .obj [("packageId", .str f.packageId),
          ("packageName", .str f.packageName), ("packageUrl", .str f.packageUrl),
          ("funcId", .int f.functionId), ("funcName", .str f.name),
          ("funcTypeSig", .str f.signature), ("moduleName", .ofOption f.moduleName)]) ∧
        List.Forall₂ (Shows settings s.client) records found := by
  intro ask
  obtain ⟨n, hn⟩ := hreachable.wellNumbered
  obtain ⟨cache, hreload⟩ := update_ok hupdate hok
  obtain ⟨-, stored, client, index, hread, hbuild, rfl⟩ := reload_installed hreload
  obtain ⟨records, hlists, rfl, hlater⟩ := Database.allSignatures_ok hn hread
  have hindex : index = .ofRecords records := by
    have htexts := buildIndex_texts (records.map fun r => (r.signature, (r.id : Int)))
    rw [List.map_map] at htexts
    exact Except.ok.inj (hbuild.symm.trans htexts)
  have hstored : Lists settings client.store records := hlater.store_eq ▸ hlists
  have hserves : Serves client records { client, cache := s₀.cache.replace clock.now index } :=
    ⟨rfl, hindex, .refl client⟩
  obtain ⟨pages, last, found, hbrowse, hlast, hflatten, hfull, hshows⟩ :=
    @Serves.browse settings client records _ times signature limit arrange hserves hstored harrange
      hreads hlimit hmax 0
  rw [Nat.zero_mul, List.drop_zero] at hshows
  refine ⟨⟨pages, last, hbrowse⟩, fun pages' last' hbrowse' => ?_⟩
  obtain ⟨rfl, rfl⟩ := hbrowse.unique hbrowse'
  exact ⟨hlast.later.store_eq.trans hlater.store_eq, hfull, withSignature records signature, found,
    get?_iff_withSignature hlists signature, hlists.ascending.filter _, hflatten, hshows⟩

/-- Three functions of a package on pages of two, while the store answers in reverse order. -/
theorem browse_complete_sample :
    let draft (name signature : String) : FunctionDraft :=
      { packageId := "elm__core", name, signature }
    let drafts := [draft "f" "Int", draft "g" "Bool", draft "h" "Int", draft "k" "Int"]
    let core : Package.Record :=
      { packageId := "elm__core", name := "elm/core", url := "https://github.com/elm/core" }
    let client := (perform (Database.replaceFunctions {} "elm__core" drafts) ⟨.empty, [], []⟩).2
    let store := (perform (Database.upsertPackage {} core) client).2.store
    let clock : Clock := ⟨"noon", .ofInt 0⟩
    let s := ((update {} clock).run ⟨⟨store, [], []⟩, .empty, none⟩).2
    let ask k := search {} clock "Int" ⟨some (2 : Nat), some (k * 2 : Nat)⟩ List.reverse
    let entry (name : String) (id : Int) : Json :=
      .obj [("packageId", .str "elm__core"), ("packageName", .str "elm/core"),
        ("packageUrl", .str "https://github.com/elm/core"), ("funcId", .int id),
        ("funcName", .str name), ("funcTypeSig", .str "Int"), ("moduleName", .null)]
    ∃ last, Browse ask 0 s [[entry "f" 0, entry "h" 2], [entry "k" 3]] last ∧
      last.client.store = store := by
  intro draft drafts core client store clock s ask entry
  have hreachable : Reachable {} store :=
    .upsert core (.replace "elm__core" drafts (by decide : 1 ≤ 500) .empty)
  have hok : ((update {} clock).run ⟨⟨store, [], []⟩, .empty, none⟩).1.status = 200 := by
    subst store client core drafts draft
    cbv
  have hfaults : s.client.faults = [] := by
    subst s store client core drafts draft
    cbv
  have hbrowse : ∃ last, Browse ask 0 s [[entry "f" 0, entry "h" 2], [entry "k" 3]] last := by
    subst entry ask s store client core drafts draft
    refine ⟨_, .page ?_ (List.cons_ne_nil _ _) (.page ?_ (List.cons_ne_nil _ _) (.done ?_))⟩
    · cbv
    · cbv
    · cbv
  obtain ⟨last, hbrowse⟩ := hbrowse
  obtain ⟨-, hall⟩ := @browse_complete {} s clock (fun _ => clock)
    ⟨⟨store, [], []⟩, .empty, none⟩ _ "Int" 2 (fun _ => List.reverse) hreachable rfl hok
    (by decide) (by decide) (fun _ => List.reverse_perm) (hfaults ▸ Store.fate_nil .getAll)
  exact ⟨last, hbrowse, (hall _ _ hbrowse).1⟩

end SignatureSearch.Service
