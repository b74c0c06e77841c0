/-
# `Proofs.Service.Serving` — what the service answers at any time

Whatever happens to the service, it answers from the pairs that the last
successful bulk load returned, or from none if there was no such load, and its
generation counts these loads (`Serving`).  One event keeps this
(`Serving.occur`), so that a history does (`follow_serving`): a bulk load that
is seen to succeed puts in the index of what it returned, and everything else
leaves the cache as it is.
-/
import SignatureSearch.Proofs.Service.Loading
import SignatureSearch.Proofs.Signature.Multimap
import SignatureSearch.Proofs.Signature.WalkOrder
import SignatureSearch.Service.History

namespace SignatureSearch.Service

open Database (Reachable allSignatures getFunctions)
open Signature (Index Pair)
open Store (Client Interruption perform)
open Validation.Checked (map_eq_valid seq_eq_valid within_eq_valid)

variable {settings : Settings} {clock : Clock} {r : Request} {endpoint : Endpoint}
  {stop : Option Interruption} {now : String} {e : Event} {s : Service}

/-! ## Requests that do not load anything -/

theorem reaches_iff : r.reaches endpoint = true ↔
    Endpoint.ofPath? r.path = some endpoint ∧ endpoint.methods.contains r.method = true := by
  simp [Request.reaches]

theorem respond_of_reaches (h : r.reaches endpoint = true) :
    respond settings clock r stop = answer settings clock r.query stop endpoint := by
  obtain ⟨hpath, hmethod⟩ := reaches_iff.mp h
  simp only [respond, hpath, hmethod, if_true]

theorem run_respond_of_not_reaches (h : ∀ endpoint, ¬ r.reaches endpoint = true) :
    ((respond settings clock r stop).run s).2 = s := by
  rw [respond]
  cases hpath : Endpoint.ofPath? r.path with
  | none =>
      dsimp only
      split <;> rfl
  | some endpoint =>
      have hmethod : ¬ endpoint.methods.contains r.method = true :=
        fun hmethod => h endpoint (reaches_iff.mpr ⟨hpath, hmethod⟩)
      simp only [hmethod]
      rfl

theorem looked_search {signature : String} {page : Page} {arrange : List String → List String} :
    Looked s ((search settings clock signature page arrange).run s).2 := by
  rw [search, run_bind, run_get]
  dsimp only
  split
  · exact .refl s
  · exact .refl s
  · next ids _ =>
      have hread := looked_database (Database.later_getFunctions settings ids arrange) s
      rw [run_bind]
      cases ((database (getFunctions settings ids arrange)).run s).1 <;> exact hread

theorem looked_suggest {start : String} {limit : Option Int} :
    Looked s ((suggest settings clock start limit).run s).2 := by
  rw [suggest, run_bind, run_get]
  dsimp only
  split <;> exact .refl s

theorem looked_respond (h : ¬ r.reaches .update = true) :
    Looked s ((respond settings clock r stop).run s).2 := by
  by_cases hnowhere : ∀ endpoint, ¬ r.reaches endpoint = true
  · rw [run_respond_of_not_reaches hnowhere]
    exact .refl s
  · obtain ⟨endpoint, hreaches⟩ := not_forall_not.mp hnowhere
    rw [respond_of_reaches hreaches]
    cases endpoint with
    | update => exact absurd hreaches h
    | search signature =>
        rw [answer, run_bind, run_get]
        dsimp only
        split
        · exact .refl s
        · split
          · exact .refl s
          · exact looked_search
    | suggest start =>
        rw [answer]
        split
        · exact .refl s
        · exact looked_suggest
    | _ => exact .refl s

/-! ## One event -/

theorem occur_of_not_bulk (h : e.bulk? = none) : ((e.occur settings).run s).2.cache = s.cache := by
  cases e with
  | load now stop => exact absurd h nofun
  | request clock r stop =>
      have hupdate : ¬ r.reaches .update = true := by
        intro hupdate
        simp [Event.bulk?, hupdate] at h
      exact (looked_respond hupdate).cache_eq
  | change client missingKey => rfl

theorem reports_ok_iff {reply : Reply} {load : Load} (h : Reports reply load) :
    reply.status = 200 ↔ ∃ cache, load = .installed cache := by
  cases load with
  | installed cache =>
      obtain rfl := h
      exact ⟨fun _ => ⟨cache, rfl⟩, fun _ => rfl⟩
  | _ => exact ⟨fun hok => absurd hok h, nofun⟩

/-- An event with a bulk load goes well exactly if it puts an index into the cache. -/
theorem occur_of_bulk (h : e.bulk? = some (now, stop)) :
    ((e.occur settings).run s).2 = ((reload settings now stop).run s).2 ∧
    (((e.occur settings).run s).1.isGood = true ↔
      ∃ cache, ((reload settings now stop).run s).1 = .installed cache) := by
  cases e with
  | load now' stop' =>
      obtain ⟨rfl, rfl⟩ := Prod.mk.inj (Option.some.inj h)
      rw [Event.occur, run_bind, load, run_bind]
      generalize (reload settings now' stop').run s = outcome
      obtain ⟨load, after⟩ := outcome
      cases load with
      | unread failure => exact ⟨rfl, nofun, nofun⟩
      | unbuilt failure => exact ⟨rfl, nofun, nofun⟩
      | installed cache => exact ⟨rfl, fun _ => ⟨cache, rfl⟩, fun _ => rfl⟩
  | request clock r stop' =>
      have hupdate : r.reaches .update = true := by
        by_contra hupdate
        simp [Event.bulk?, hupdate] at h
      obtain ⟨rfl, rfl⟩ : clock.now = now ∧ stop' = stop := by
        simpa [Event.bulk?, hupdate] using h
      obtain ⟨reply, hreports, hrun⟩ := run_update settings clock stop' s
      rw [Event.occur, run_bind, respond_of_reaches hupdate, answer, hrun]
      exact ⟨rfl, decide_eq_true_iff.trans (reports_ok_iff hreports)⟩
  | change client missingKey => exact absurd h nofun

/-- Where all signatures are texts, an event with a bulk load goes well exactly if the stream is read
to its end. -/
theorem success?_of_bulk (htexts : TextSignatures settings s.client.store)
    (h : e.bulk? = some (now, stop)) :
    (∃ pairs, ((database (allSignatures settings stop)).run s).1 = .ok (storedPairs pairs) ∧
      e.success? settings s = some ⟨now, .ok (storedPairs pairs)⟩ ∧
      ((e.occur settings).run s).2.cache = s.cache.replace now (.build pairs)) ∨
    (∃ failure, ((database (allSignatures settings stop)).run s).1 = .error failure ∧
      e.success? settings s = none ∧ ((e.occur settings).run s).2.cache = s.cache) := by
  obtain ⟨hafter, hgood⟩ := @occur_of_bulk settings stop now e s h
  rw [hafter, Event.success?, h, Option.bind_some]
  dsimp only
  rcases reload_texts htexts now stop with
    ⟨pairs, after, hread, hrun, hcache⟩ | ⟨failure, after, hread, hrun, hcache⟩
  · rw [hrun] at hgood ⊢
    rw [hread]
    exact Or.inl ⟨pairs, rfl, if_pos (hgood.mpr ⟨_, rfl⟩), hcache⟩
  · rw [hrun] at hgood ⊢
    exact Or.inr ⟨failure, hread, if_neg fun hok => absurd (hgood.mp hok) nofun, hcache⟩

/-- Where others change the store, the signatures there are texts again. -/
def Event.IsTextual (settings : Settings) : Event → Prop
  | .change client _ => TextSignatures settings client.store
  | _ => True

theorem Event.IsTextual.occur (he : e.IsTextual settings)
    (htexts : TextSignatures settings s.client.store) :
    TextSignatures settings ((e.occur settings).run s).2.client.store := by
  cases hbulk : e.bulk? with
  | some bulk =>
      rw [(occur_of_bulk hbulk).1, reload_store]
      exact htexts
  | none =>
      cases e with
      | load now stop => exact absurd hbulk nofun
      | request clock r stop =>
          have hlooked : Looked s ((respond settings clock r stop).run s).2 :=
            looked_respond fun hupdate => absurd hbulk (by simp [Event.bulk?, hupdate])
          exact hlooked.store_eq ▸ htexts
      | change client missingKey => exact he

/-! ## Histories -/

/-- What the last of some bulk loads returned: these pairs, or none if there was no load. -/
def LastPairs (successes : List Success) (pairs : List (Pair Int)) : Prop :=
  match successes.getLast? with
  | none => pairs = []
  | some success => success.returned = .ok (storedPairs pairs)

theorem LastPairs.unique {successes : List Success} {pairs pairs' : List (Pair Int)}
    (h : LastPairs successes pairs) (h' : LastPairs successes pairs') : pairs = pairs' := by
  rw [LastPairs] at h h'
  cases hlast : successes.getLast? with
  | none =>
      rw [hlast] at h h'
      exact h.trans h'.symm
  | some success =>
      rw [hlast] at h h'
      exact storedPairs_injective (Except.ok.inj (h.symm.trans h'))

/-- The service serves the index of some pairs, after some bulk loads that succeeded. -/
structure Serving (settings : Settings) (s : Service) (successes : List Success)
    (pairs : List (Pair Int)) : Prop where
  texts : TextSignatures settings s.client.store
  last : LastPairs successes pairs
  index_eq : s.cache.index = .build pairs
  generation_eq : s.cache.generation = successes.length
  replacedAt_eq : s.cache.replacedAt = successes.getLast?.map (·.now)

namespace Serving

variable {successes : List Success} {pairs : List (Pair Int)}

theorem start {client : Client} (htexts : TextSignatures settings client.store)
    (missingKey : Option String) : Serving settings ⟨client, .empty, missingKey⟩ [] [] :=
  ⟨htexts, rfl, rfl, rfl, rfl⟩

/-- One event: a bulk load that succeeds is the last one from now on. -/
theorem occur (h : Serving settings s successes pairs) (he : e.IsTextual settings) :
    ∃ pairs', Serving settings ((e.occur settings).run s).2
      (successes ++ (e.success? settings s).toList) pairs' := by
  have htexts := he.occur h.texts
  have hsame : e.success? settings s = none →
      ((e.occur settings).run s).2.cache = s.cache → ∃ pairs', Serving settings
        ((e.occur settings).run s).2 (successes ++ (e.success? settings s).toList) pairs' := by
    intro hnone hcache
    rw [hnone, Option.toList_none, List.append_nil]
    exact ⟨pairs, htexts, h.last, hcache ▸ h.index_eq, hcache ▸ h.generation_eq,
      hcache ▸ h.replacedAt_eq⟩
  cases hbulk : e.bulk? with
  | none => exact hsame (by simp [Event.success?, hbulk]) (occur_of_not_bulk hbulk)
  | some bulk =>
      obtain ⟨now, stop⟩ := bulk
      rcases success?_of_bulk h.texts hbulk with
        ⟨new, -, hsuccess, hcache⟩ | ⟨failure, -, hnone, hcache⟩
      · refine ⟨new, htexts, ?_, ?_, ?_, ?_⟩
        · simp [LastPairs, hsuccess]
        · rw [hcache]
          rfl
        · rw [hcache, hsuccess, Option.toList_some, List.length_append, ← h.generation_eq]
          rfl
        · simp [hcache, hsuccess, Signature.Cache.replace]
      · exact hsame hnone hcache

theorem follow {events : List Event} (h : Serving settings s successes pairs)
    (hevents : ∀ e ∈ events, e.IsTextual settings) :
    ∃ pairs', Serving settings (follow settings events s).1
      (successes ++ (follow settings events s).2) pairs' := by
  induction events generalizing s successes pairs with
  | nil =>
      rw [Service.follow, List.append_nil]
      exact ⟨pairs, h⟩
  | cons e rest ih =>
      obtain ⟨pairs', hnext⟩ := h.occur (hevents e List.mem_cons_self)
      obtain ⟨last, hlast⟩ := ih hnext fun e' he' => hevents e' (List.mem_cons_of_mem e he')
      rw [List.append_assoc] at hlast
      exact ⟨last, hlast⟩

end Serving

/-! ## Valid parameters -/

theorem least_le_of_parameter {query name : String} {least n : Int}
    (h : parameter query name least = .valid (some n)) : least ≤ n := by
  rw [parameter] at h
  cases hlookup : Text.Percent.lookup? query name with
  | none => simp [hlookup] at h
  | some value =>
      rw [hlookup] at h
      obtain ⟨m, hbounded, hm⟩ := map_eq_valid.mp (within_eq_valid.mp (within_eq_valid.mp h))
      obtain rfl := Option.some.inj hm
      exact Validation.least_le_of_bounded hbounded

theorem valid_page {query : String} {page : Page} (h : Page.ofQuery query = .valid page) :
    parameter query "limit" 1 = .valid page.limit ∧
      parameter query "offset" 0 = .valid page.offset := by
  obtain ⟨next, offset, hnext, hoffset, rfl⟩ := seq_eq_valid.mp h
  obtain ⟨limit, hlimit, rfl⟩ := map_eq_valid.mp hnext
  exact ⟨hlimit, hoffset⟩

theorem zero_le_pageSize {query : String} {limit : Option Int}
    (h : parameter query "limit" 1 = .valid limit) (settings : Settings) (default : Nat) :
    0 ≤ pageSize settings limit default := by
  cases limit with
  | none => simp [pageSize]
  | some limit =>
      have := least_le_of_parameter h
      simp only [pageSize, Option.getD_some]
      omega

theorem zero_le_offset {query : String} {offset : Option Int}
    (h : parameter query "offset" 0 = .valid offset) : 0 ≤ offset.getD 0 := by
  cases offset with
  | none => exact le_rfl
  | some offset => exact least_le_of_parameter h

/-! ## Answers -/

/-- The identifiers that some pairs have for a signature, a page of them. -/
def pageIds (settings : Settings) (pairs : List (Pair Int)) (signature : String) (page : Page) :
    List Int :=
  ((Index.idsFor pairs signature).drop (page.offset.getD 0).toNat).take
    (pageSize settings page.limit settings.searchPageSize).toNat

/-- The first signatures of some pairs that start with a text. -/
def suggestions (settings : Settings) (pairs : List (Pair Int)) (start : String)
    (limit : Option Int) : List String :=
  (Index.found pairs start).take (pageSize settings limit settings.suggestLimit).toNat

def fetch (settings : Settings) (ids : List Int) : StateM Service Reply := do
  match ← database (getFunctions settings ids) with
  | .ok found => return .ok (.arr (found.map fun f => .obj f.toFields))
  | .error failure => return .fault 500 s!"Error fetching functions: {failure.message}"

/-- How many different signatures some pairs have. -/
def signatureCount (pairs : List (Pair Int)) : Nat :=
  (pairs.map (·.1)).toFinset.card

/-- The service answers from some pairs, after so many bulk loads that succeeded. -/
structure Answers (settings : Settings) (s : Service) (count : Nat) (pairs : List (Pair Int)) :
    Prop where
  ready : ∀ clock r stop, r.reaches .ready = true →
    ((respond settings clock r stop).run s).1.status = if 0 < count then 200 else 503
  health : ∀ clock r stop, r.reaches .health = true →
    (respond settings clock r stop).run s = (.ok (.obj [("status", .str "healthy"),
      ("timestamp", .str clock.now), ("uptime", .float clock.uptime), ("version", .str version),
      ("checks", .obj [("api", .str "healthy"), ("index_generation", .int count),
        ("index_signatures", .int (signatureCount pairs)), ("index_functions", .int pairs.length),
        ("index_replaced_at", .ofOption s.cache.replacedAt)])]), s)
  /-- Which functions are fetched is read off the pairs. -/
  search : ∀ clock r stop signature page, r.reaches (.search signature) = true →
    s.missingKey = none → Page.ofQuery r.query = .valid page →
    (respond settings clock r stop).run s =
      (fetch settings (pageIds settings pairs signature page)).run s
  suggest : ∀ clock r stop start limit, r.reaches (.suggest start) = true →
    parameter r.query "limit" 1 = .valid limit →
    (respond settings clock r stop).run s =
      (.ok (.ofStrings (suggestions settings pairs start limit)), s)
  /-- An update that went well reports on what it read. -/
  update : ∀ clock r stop, r.reaches .update = true →
    ((respond settings clock r stop).run s).1.status = 200 →
    ∃ new, ((database (allSignatures settings stop)).run s).1 = .ok (storedPairs new) ∧
      ((respond settings clock r stop).run s).2.cache = s.cache.replace clock.now (.build new) ∧
      ((respond settings clock r stop).run s).1 = .ok (.obj [("success", .bool true),
        ("signatures", .int (signatureCount new)), ("functions", .int new.length),
        ("generation", .int (count + 1 : Nat)), ("updated_at", .str clock.now)])
  /-- A bulk load goes well if the stream is read to its end. -/
  loads : ∀ (e : Event) now stop, e.bulk? = some (now, stop) →
    ((e.success? settings s).isSome ↔
      ∃ stored, ((database (allSignatures settings stop)).run s).1 = .ok stored)
  /-- Whatever is not a bulk load that goes well changes nothing of this. -/
  unchanged : ∀ e : Event, e.success? settings s = none → ((e.occur settings).run s).2.cache = s.cache

namespace Serving

variable {successes : List Success} {pairs : List (Pair Int)}

theorem ready (h : Serving settings s successes pairs) (hreaches : r.reaches .ready = true) :
    ((respond settings clock r stop).run s).1.status =
      if 0 < successes.length then 200 else 503 := by
  rw [respond_of_reaches hreaches]
  show (Service.ready clock s).status = _
  rw [Service.ready, h.generation_eq]
  by_cases hnone : successes.length = 0
  · rw [if_pos hnone, if_neg (by omega)]
    rfl
  · rw [if_neg hnone, if_pos (by omega)]
    rfl

theorem health (h : Serving settings s successes pairs) (hreaches : r.reaches .health = true) :
    (respond settings clock r stop).run s = (.ok (.obj [("status", .str "healthy"),
      ("timestamp", .str clock.now), ("uptime", .float clock.uptime), ("version", .str version),
      ("checks", .obj [("api", .str "healthy"), ("index_generation", .int successes.length),
        ("index_signatures", .int (signatureCount pairs)), ("index_functions", .int pairs.length),
        ("index_replaced_at", .ofOption s.cache.replacedAt)])]), s) := by
  have hagrees := Index.agrees_build pairs
  rw [respond_of_reaches hreaches]
  show (Service.health clock s, s) = _
  rw [Service.health, h.generation_eq, h.index_eq, hagrees.size_eq, hagrees.signatureCount_eq]
  rfl

theorem cache_search (h : Serving settings s successes pairs) {query signature : String}
    {page : Page} (hpage : Page.ofQuery query = .valid page) :
    s.cache.search signature (pageSize settings page.limit settings.searchPageSize) page.offset =
      .ok (if (Index.idsFor pairs signature).length ≤ (page.offset.getD 0).toNat then none
        else some (pageIds settings pairs signature page)) := by
  obtain ⟨hlimit, hoffset⟩ := valid_page hpage
  have hsize := zero_le_pageSize hlimit settings settings.searchPageSize
  have hstart := zero_le_offset hoffset
  rw [Signature.Cache.search, h.index_eq, Index.search, if_neg (Int.not_lt.mpr hsize),
    if_neg (Int.not_lt.mpr hstart), Index.page?, (Index.agrees_build pairs).idsOf_eq]
  by_cases hlength : (Index.idsFor pairs signature).length ≤ (page.offset.getD 0).toNat
  · rw [if_pos hlength, if_neg (Nat.not_lt.mpr hlength)]
  · rw [if_neg hlength, if_pos (Nat.not_le.mp hlength)]
    rfl

theorem search (h : Serving settings s successes pairs) {signature : String} {page : Page}
    (hreaches : r.reaches (.search signature) = true) (hkey : s.missingKey = none)
    (hpage : Page.ofQuery r.query = .valid page) :
    (respond settings clock r stop).run s =
      (fetch settings (pageIds settings pairs signature page)).run s := by
  have hanswer : (respond settings clock r stop).run s =
      (Service.search settings clock signature page).run s := by
    rw [respond_of_reaches hreaches, answer, run_bind, run_get]
    simp only [hkey, hpage]
    rfl
  rw [hanswer, Service.search, run_bind, run_get]
  dsimp only
  rw [h.cache_search hpage]
  by_cases hlength : (Index.idsFor pairs signature).length ≤ (page.offset.getD 0).toNat
  · -- Fetching nothing finds nothing.
    have hids : pageIds settings pairs signature page = [] := by
      rw [pageIds, List.drop_eq_nil_of_le hlength, List.take_nil]
    rw [if_pos hlength, hids, fetch, run_bind, run_database _ hkey]
    rfl
  · rw [if_neg hlength]
    rfl

theorem suggest (h : Serving settings s successes pairs) {start : String} {limit : Option Int}
    (hreaches : r.reaches (.suggest start) = true)
    (hlimit : parameter r.query "limit" 1 = .valid limit) :
    (respond settings clock r stop).run s =
      (.ok (.ofStrings (suggestions settings pairs start limit)), s) := by
  have hsize := zero_le_pageSize hlimit settings settings.suggestLimit
  rw [respond_of_reaches hreaches, answer, hlimit]
  dsimp only
  rw [Service.suggest, run_bind, run_get, Signature.Cache.suggest, h.index_eq]
  have hfound : (Index.build pairs).suggest start (pageSize settings limit settings.suggestLimit) =
      .ok (if suggestions settings pairs start limit = [] then none
        else some (suggestions settings pairs start limit)) := by
    have hbuild := Index.suggest_build pairs start
      (pageSize settings limit settings.suggestLimit).toNat
    rwa [Int.toNat_of_nonneg hsize] at hbuild
  dsimp only
  rw [hfound]
  by_cases hnone : suggestions settings pairs start limit = []
  · rw [if_pos hnone, hnone]
    rfl
  · rw [if_neg hnone]
    rfl

theorem update (h : Serving settings s successes pairs) (hreaches : r.reaches .update = true)
    (hok : ((respond settings clock r stop).run s).1.status = 200) :
    ∃ new, ((database (allSignatures settings stop)).run s).1 = .ok (storedPairs new) ∧
      ((respond settings clock r stop).run s).2.cache = s.cache.replace clock.now (.build new) ∧
      ((respond settings clock r stop).run s).1 = .ok (.obj [("success", .bool true),
        ("signatures", .int (signatureCount new)), ("functions", .int new.length),
        ("generation", .int (successes.length + 1 : Nat)), ("updated_at", .str clock.now)]) := by
  obtain ⟨reply, hreports, hrun⟩ := run_update settings clock stop s
  have hrespond : (respond settings clock r stop).run s = _ :=
    (congrArg (·.run s) (respond_of_reaches hreaches)).trans hrun
  rw [hrespond] at hok ⊢
  rcases reload_texts h.texts clock.now stop with
    ⟨new, after, hread, hinstalled, hcache⟩ | ⟨failure, after, -, hfailed, -⟩
  · have hagrees := Index.agrees_build new
    rw [hinstalled] at hreports ⊢
    refine ⟨new, hread, hcache, ?_⟩
    rw [show reply = _ from hreports, hcache, Signature.Cache.replace, hagrees.size_eq,
      hagrees.signatureCount_eq, h.generation_eq]
    rfl
  · rw [hfailed] at hreports
    exact absurd hok hreports

theorem loads (h : Serving settings s successes pairs) (hbulk : e.bulk? = some (now, stop)) :
    (e.success? settings s).isSome ↔
      ∃ stored, ((database (allSignatures settings stop)).run s).1 = .ok stored := by
  rcases success?_of_bulk h.texts hbulk with
    ⟨new, hread, hsuccess, -⟩ | ⟨failure, hread, hnone, -⟩
  · rw [hsuccess]
    exact ⟨fun _ => ⟨_, hread⟩, fun _ => rfl⟩
  · rw [hnone, hread]
    exact ⟨nofun, nofun⟩

theorem unchanged (h : Serving settings s successes pairs) (hnone : e.success? settings s = none) :
    ((e.occur settings).run s).2.cache = s.cache := by
  cases hbulk : e.bulk? with
  | none => exact occur_of_not_bulk hbulk
  | some bulk =>
      rcases success?_of_bulk h.texts hbulk with
        ⟨new, -, hsuccess, -⟩ | ⟨failure, -, -, hcache⟩
      · exact absurd (hsuccess.symm.trans hnone) nofun
      · exact hcache

theorem answers (h : Serving settings s successes pairs) :
    Answers settings s successes.length pairs where
  ready _ _ _ := h.ready
  health _ _ _ := h.health
  search _ _ _ _ _ := h.search
  suggest _ _ _ _ _ := h.suggest
  update _ _ _ := h.update
  loads _ _ _ := h.loads
  unchanged _ := h.unchanged

end Serving

/-- **The service answers from the last successful bulk load.**  Whatever happens to it, and
wherever bulk loads break off: its generation counts those that succeeded, its index is that of the
pairs that the last one returned, and so are its answers. -/
theorem follow_serving {client : Client} {missingKey : Option String} {events : List Event}
    (hstart : TextSignatures settings client.store)
    (hevents : ∀ e ∈ events, e.IsTextual settings) :
    let (s, successes) := follow settings events ⟨client, .empty, missingKey⟩
    s.cache.generation = successes.length ∧
    s.cache.replacedAt = successes.getLast?.map (·.now) ∧
    ∃ pairs, LastPairs successes pairs ∧ s.cache.index = .build pairs ∧
      Answers settings s successes.length pairs := by
  obtain ⟨pairs, h⟩ := (Serving.start hstart missingKey).follow hevents
  rw [List.nil_append] at h
  exact ⟨h.generation_eq, h.replacedAt_eq, pairs, h.last, h.index_eq, h.answers⟩

/-- The first bulk load breaks off after one function, the second one goes well, and for the last
one the store cannot be reached. -/
theorem follow_serving_sample :
    let draft (name signature : String) : FunctionDraft := { packageId := "a", name, signature }
    let drafts := [draft "f" "Int", draft "g" "Bool"]
    let store := (perform (Database.replaceFunctions {} "a" drafts) ⟨.empty, [], []⟩).2.store
    let post : Request := ⟨"POST", "localhost", "/update_functions", ""⟩
    let get (path : String) : Request := ⟨"GET", "localhost", path, ""⟩
    let clock (now : String) : Clock := ⟨now, .ofInt 0⟩
    let events : List Event := [.load "dawn" (some ⟨1, .runtime, "gone"⟩),
      .request (clock "noon") post none, .change ⟨.empty, [], []⟩ (some "key.json"),
      .request (clock "dusk") post none]
    let (s, _) := follow {} events ⟨⟨store, [], []⟩, .empty, none⟩
    s.cache.generation = 1 ∧ s.cache.replacedAt = some "noon" ∧
      ((respond {} (clock "night") (get "/health/ready")).run s).1.status = 200 ∧
      (respond {} (clock "night") (get "/suggest/")).run s =
        (.ok (.ofStrings ["Int", "Bool"]), s) := by
  intro draft drafts store post get clock events
  have hstore : Reachable {} store := .replace "a" drafts (by decide : 1 ≤ 500) .empty
  have hevents : ∀ e ∈ events, e.IsTextual {} := by
    simp [events, Event.IsTextual, textSignatures_of_reachable Reachable.empty]
  have hpost : post.reaches .update = true := by decide +kernel
  have hrespond : ∀ now stop, respond {} (clock now) post stop = update {} (clock now) stop :=
    fun now stop => respond_of_reaches hpost
  have hsuccesses : (follow {} events ⟨⟨store, [], []⟩, .empty, none⟩).2 =
      [⟨"noon", .ok (storedPairs [("Int", 0), ("Bool", 1)])⟩] := by
    -- Where the requests lead is settled by `hpost`; what is left is what the loads return.
    simp only [events, follow, Event.success?, Event.bulk?, Event.occur, hpost, hrespond, if_true,
      Option.bind_some, Option.bind_none]
    clear_value post
    subst events clock store drafts draft
    cbv
  have hserving := @follow_serving {} ⟨store, [], []⟩ none events
    (textSignatures_of_reachable hstore) hevents
  revert hserving hsuccesses
  generalize follow {} events ⟨⟨store, [], []⟩, .empty, none⟩ = outcome
  obtain ⟨s, successes⟩ := outcome
  rintro rfl ⟨hgeneration, hreplacedAt, pairs, hlast, -, hanswers⟩
  obtain rfl : [("Int", 0), ("Bool", 1)] = pairs :=
    storedPairs_injective (Except.ok.inj hlast)
  refine ⟨hgeneration, hreplacedAt, ?_, ?_⟩
  · exact hanswers.ready _ _ none (by decide +kernel)
  · have hfound : suggestions {} [("Int", 0), ("Bool", 1)] "" none = ["Int", "Bool"] := by
      decide +kernel
    rw [hanswers.suggest _ _ none "" none (by decide +kernel) (by decide +kernel), hfound]
end SignatureSearch.Service
