/-
# `Proofs.Scrape.Retention` — which functions are in the store after a scrape

A scrape indexes its packages one after the other, and each one replaces what
is stored under its identifier.  So the functions that are left under an
identifier are those of the last package that has it (`indexAll_holds`), and
the functions of a package are all there just when that one has them as well
(`run_retains`).

The identifier is the name with two underscores for every slash.  It tells
names apart that have no underscores (`identifier_injective`); but `x/y__z` and
`x__y/z` have the same one, and then the functions of the first package are lost
(`run_loses`).
-/
import SignatureSearch.Proofs.Indexing.Storing
import SignatureSearch.Scrape

namespace SignatureSearch

/-! ## Identifiers of packages -/

namespace PackageName

theorem takeWhile_text (n : PackageName) :
    n.text.toList.takeWhile (· ≠ '/') = n.author.toList := by
  have hauthor : ∀ c ∈ n.author.toList, (decide (c ≠ '/')) = true := by
    intro c hc
    simpa using ne_of_mem_of_not_mem hc n.slash_not_mem
  have htext : n.text.toList = n.author.toList ++ '/' :: n.project.toList := by
    simp [text]
  rw [htext, List.takeWhile_append_of_pos hauthor, List.takeWhile_cons_of_neg (by simp),
    List.append_nil]

theorem text_injective : Function.Injective text := by
  intro m n h
  have hauthor : m.author = n.author := by
    rw [← String.toList_inj, ← takeWhile_text, ← takeWhile_text, h]
  have hproject : m.project = n.project := by
    have hlist := congrArg String.toList h
    simp only [text, String.toList_append, hauthor] at hlist
    exact String.toList_injective (List.append_cancel_left hlist)
  cases m
  cases n
  simp_all

/-- What an identifier has for a character of a name. -/
theorem flatMap_slash_inj {cs ds : List Char} (hcs : '_' ∉ cs) (hds : '_' ∉ ds)
    (h : (cs.flatMap fun c => if c = '/' then ['_', '_'] else [c]) =
      ds.flatMap fun c => if c = '/' then ['_', '_'] else [c]) : cs = ds := by
  induction cs generalizing ds with
  | nil =>
      cases ds with
      | nil => rfl
      | cons d ds =>
          rw [List.flatMap_cons] at h
          split at h <;> exact absurd h (by simp)
  | cons c cs ih =>
      cases ds with
      | nil =>
          rw [List.flatMap_cons] at h
          split at h <;> exact absurd h (by simp)
      | cons d ds =>
          rw [List.mem_cons, not_or] at hcs hds
          rw [List.flatMap_cons, List.flatMap_cons] at h
          by_cases hc : c = '/' <;> by_cases hd : d = '/'
          · rw [if_pos hc, if_pos hd] at h
            rw [hc, hd, ih hcs.2 hds.2 (List.append_cancel_left h)]
          · rw [if_pos hc, if_neg hd] at h
            exact absurd (List.cons.inj h).1 hds.1
          · rw [if_neg hc, if_pos hd] at h
            exact absurd (List.cons.inj h).1.symm hcs.1
          · rw [if_neg hc, if_neg hd] at h
            obtain ⟨rfl, hrest⟩ := List.cons.inj h
            rw [ih hcs.2 hds.2 hrest]

/-- Names without underscores have different identifiers. -/
theorem identifier_injective {m n : PackageName} (hm : '_' ∉ m.text.toList)
    (hn : '_' ∉ n.text.toList) (h : m.identifier = n.identifier) : m = n := by
  have hlist := congrArg String.toList h
  rw [identifier, identifier, String.toList_ofList, String.toList_ofList] at hlist
  exact text_injective (String.toList_injective (flatMap_slash_inj hm hn hlist))

end PackageName

/-! ## Functions that are kept -/

namespace Database

variable {settings : Settings} {store : Store} {drafts kept : List FunctionDraft}

/-- A stored function without its identifier. -/
def draftOf (r : FunctionRecord) : FunctionDraft where
  packageId := r.packageId
  name := r.name
  signature := r.signature
  moduleName := r.moduleName

theorem map_draftOf_numbered (n : Nat) (drafts : List FunctionDraft) :
    (numbered n drafts).map draftOf = drafts := by
  rw [numbered, List.map_map]
  exact List.zipIdx_map_fst n drafts

/-- All of some functions are in a store, each in a document of its own. -/
def Retains (settings : Settings) (store : Store) (drafts : List FunctionDraft) : Prop :=
  ∃ records : List FunctionRecord, (records.map draftOf).Perm drafts ∧
    (records.map (·.id)).Nodup ∧
    ∀ r ∈ records, store.get? (functionKey settings r.id) = some r.toFields

/-- Where the functions of a package are exactly the given ones, those are kept that are among
these. -/
theorem Holds.retains_iff {packageId : String} {n : Nat}
    (h : Holds settings store packageId (numbered n kept))
    (howned : ∀ draft ∈ drafts, draft.packageId = packageId) :
    Retains settings store drafts ↔ drafts.Subperm kept := by
  constructor
  · rintro ⟨records, hperm, hnodup, hstored⟩
    have hsubset : records ⊆ numbered n kept := by
      intro r hr
      have hpackage : r.packageId = packageId :=
        howned (draftOf r) (hperm.subset (List.mem_map_of_mem hr))
      obtain ⟨r', hr', hkey, hfields⟩ :=
        (h _ _).mp ⟨hstored r hr, hpackage ▸ isOf_toFields settings r⟩
      have hsame : FunctionRecord.ofFields r.toFields = FunctionRecord.ofFields r'.toFields :=
        congrArg _ hfields
      rw [r.ofFields_toFields, r'.ofFields_toFields] at hsame
      cases hsame
      exact hr'
    obtain ⟨part, hpart, hsublist⟩ :=
      List.subperm_of_subset (List.Nodup.of_map _ hnodup) hsubset
    refine ⟨part.map draftOf, (hpart.map draftOf).trans hperm, ?_⟩
    rw [← map_draftOf_numbered n kept]
    exact hsublist.map draftOf
  · rintro ⟨drafts', hperm, hsublist⟩
    rw [← map_draftOf_numbered n kept] at hsublist
    obtain ⟨records, hrecords, rfl⟩ := List.sublist_map_iff.mp hsublist
    refine ⟨records, hperm, (nodup_numbered n kept).sublist (hrecords.map _), fun r hr => ?_⟩
    exact ((h _ _).mpr ⟨r, hrecords.subset hr, rfl, rfl⟩).1

end Database

namespace Scrape

open Database
open Store (Client)

variable {settings : Settings} {now : String} {client last : Client}

/-! ## Indexing all packages -/

/-- The last of some packages with an identifier, with its checkout. -/
def lastWith? (jobs : List (Package × Checkout)) (id : String) : Option (Package × Checkout) :=
  jobs.reverse.find? (·.1.name.identifier = id)

theorem lastWith?_cons (job : Package × Checkout) (rest : List (Package × Checkout)) (id : String) :
    lastWith? (job :: rest) id =
      (lastWith? rest id).or (if job.1.name.identifier = id then some job else none) := by
  rw [lastWith?, List.reverse_cons, List.find?_append, ← lastWith?]
  by_cases h : job.1.name.identifier = id <;> simp [h]

theorem of_lastWith?_eq_some {jobs : List (Package × Checkout)} {id : String}
    {job : Package × Checkout} (h : lastWith? jobs id = some job) :
    job ∈ jobs ∧ job.1.name.identifier = id :=
  ⟨List.mem_reverse.mp (List.mem_of_find?_eq_some h), by simpa using List.find?_some h⟩

theorem ne_of_lastWith?_eq_none {jobs : List (Package × Checkout)} {id : String}
    (h : lastWith? jobs id = none) : ∀ job ∈ jobs, job.1.name.identifier ≠ id := by
  intro job hjob
  simpa using List.find?_eq_none.mp h job (List.mem_reverse.mpr hjob)

theorem run_indexAll_cons (package : Package) (checkout : Checkout)
    (rest : List (Package × Checkout)) (client : Client) :
    (indexAll settings now ((package, checkout) :: rest)).run client =
      (((Indexing.indexPackage settings now package checkout).runOn client).1 ::
          ((indexAll settings now rest).run
            ((Indexing.indexPackage settings now package checkout).runOn client).2).1,
        ((indexAll settings now rest).run
          ((Indexing.indexPackage settings now package checkout).runOn client).2).2) :=
  rfl

/-- What is left under an identifier is what the last package that has it was indexed with. -/
theorem indexAll_holds {jobs : List (Package × Checkout)}
    {results : List (Except Indexing.Error Indexing.Report)} {n : Nat}
    (h : WellNumbered settings client.store n)
    (hdone : (indexAll settings now jobs).run client = (results, last))
    (hok : ∀ result ∈ results, result.toBool = true) :
    (∀ job ∈ jobs, ∃ drafts, Indexing.collected settings job.1 job.2 = .ok drafts) ∧
    ∀ id,
      (lastWith? jobs id = none → Agree settings id client.store last.store) ∧
      ∀ job, lastWith? jobs id = some job →
        ∃ kept m, Indexing.collected settings job.1 job.2 = .ok kept ∧
          Holds settings last.store id (numbered m kept) := by
  induction jobs generalizing client n results with
  | nil =>
      obtain ⟨rfl, rfl⟩ := Prod.mk.inj hdone
      exact ⟨nofun, fun id => ⟨fun _ => .refl settings id _, nofun⟩⟩
  | cons job rest ih =>
      obtain ⟨package, checkout⟩ := job
      obtain ⟨result, mid, hfirst⟩ : ∃ result mid,
          (Indexing.indexPackage settings now package checkout).runOn client = (result, mid) :=
        ⟨_, _, rfl⟩
      obtain ⟨others, last', hrest⟩ : ∃ others last',
          (indexAll settings now rest).run mid = (others, last') := ⟨_, _, rfl⟩
      rw [run_indexAll_cons, hfirst, hrest] at hdone
      obtain ⟨rfl, rfl⟩ := Prod.mk.inj hdone
      obtain ⟨report, rfl⟩ : ∃ report, result = .ok report := by
        have hresult := hok result List.mem_cons_self
        cases result with
        | error e => exact Bool.noConfusion hresult
        | ok report => exact ⟨report, rfl⟩
      obtain ⟨drafts, hcollected, hmid, hholds, hothers⟩ := Indexing.indexPackage_holds h hfirst
      obtain ⟨hall, hids⟩ := ih hmid hrest fun r hr => hok r (List.mem_cons_of_mem _ hr)
      refine ⟨List.forall_mem_cons.mpr ⟨⟨drafts, hcollected⟩, hall⟩, fun id => ?_⟩
      obtain ⟨hnone, hsome⟩ := hids id
      rw [lastWith?_cons]
      cases hlater : lastWith? rest id with
      | some later => exact ⟨nofun, fun job hjob => hsome job (hlater.trans hjob)⟩
      | none =>
          by_cases hid : package.name.identifier = id
          · subst hid
            refine ⟨by simp, fun job hjob => ?_⟩
            obtain rfl : (package, checkout) = job := by simpa using hjob
            exact ⟨drafts, n, hcollected, (hnone hlater).holds_iff.mp hholds⟩
          · refine ⟨fun _ => ?_, by simp [hid]⟩
            exact Indexing.agree_trans (hothers id (Ne.symm hid)) (hnone hlater)

/-! ## Packages with checkouts -/

theorem sublist_existing {w : Surroundings} {packages : List Package} {synced : List Synced}
    (h : existing w packages = .ok synced) : (synced.map (·.1)).Sublist packages := by
  unfold existing at h
  cases hplaced : packages.mapM (fun p => do
      return (p, ← (Repository.place w.root w.cacheDir p.name).mapError Error.repository)) with
  | error e =>
      rw [hplaced] at h
      exact absurd h (by simp [bind, Except.bind])
  | ok placed =>
      rw [hplaced] at h
      obtain rfl := Except.ok.inj h
      have hall : List.Forall₂ (fun p (s : Synced) => p = s.1) packages placed := by
        refine (Store.forall₂_of_mapM_eq_ok hplaced).imp fun p s hp => ?_
        cases hplace : (Repository.place w.root w.cacheDir p.name).mapError Error.repository with
        | error e =>
            rw [hplace] at hp
            exact absurd hp (by simp [bind, Except.bind])
        | ok names =>
            rw [hplace] at hp
            obtain rfl := Except.ok.inj hp
            rfl
      have hmap : packages = placed.map (·.1) := by
        rw [← List.forall₂_eq_eq_eq, List.forall₂_map_right_iff]
        exact hall
      exact hmap ▸ List.filter_sublist.map _

theorem sublist_syncAll {w : Surroundings} {packages : List Package} {synced : List Synced}
    (h : (syncAll settings w packages).result = .ok synced) :
    (synced.map (·.1)).Sublist packages := by
  induction packages using List.reverseRecOn generalizing synced with
  | nil =>
      obtain rfl := Except.ok.inj h
      exact .slnil
  | append_singleton packages package ih =>
      rw [syncAll, List.foldl_append, ← syncAll] at h
      simp only [List.foldl_cons, List.foldl_nil, SyncOutcome.add] at h
      cases hbefore : (syncAll settings w packages).result with
      | error e =>
          rw [hbefore] at h
          exact absurd h (by simp [bind, Except.bind])
      | ok before =>
          rw [hbefore] at h
          have hsublist := ih hbefore
          have hskipped := hsublist.trans (List.sublist_append_left packages [package])
          dsimp only [bind, Except.bind] at h
          split at h
          · obtain rfl := Except.ok.inj h
            rw [List.map_append]
            exact hsublist.append (.refl _)
          · split at h
            · exact Except.ok.inj h ▸ hskipped
            · exact absurd h (by simp [throw, throwThe, MonadExceptOf.throw])

/-- The packages that have a checkout are some of the chosen ones, in their order. -/
theorem sublist_syncPackages {w : Surroundings} {plan : Plan} {packages : List Package}
    {synced : List Synced} (h : (syncPackages settings w plan packages).result = .ok synced) :
    (synced.map (·.1)).Sublist packages := by
  unfold syncPackages at h
  split at h
  · exact sublist_existing h
  · split at h
    · exact absurd h (by simp)
    · exact sublist_syncAll h

/-! ## The whole scrape -/

/-- The packages that a scrape indexes, with their checkouts. -/
def jobs (settings : Settings) (w : Surroundings) (plan : Plan) (packages : List Package)
    (synced : List Synced) : List (Package × Checkout) :=
  synced.map fun s => (s.1, checkoutAt w (syncPackages settings w plan packages).tree s.2)

theorem map_fst_jobs (settings : Settings) (w : Surroundings) (plan : Plan)
    (packages : List Package) (synced : List Synced) :
    (jobs settings w plan packages synced).map (·.1) = synced.map (·.1) := by
  rw [jobs, List.map_map]
  rfl

theorem run_eq_ok {w : Surroundings} {plan : Plan} {summary : Summary} {trace : Trace}
    (h : (run settings now w plan).run client = ((.ok summary, trace), last)) :
    ∃ packages synced results,
      ((Catalog.ofExchange (Catalog.request w.network true settings.catalogUrl)).mapError
        Error.catalog >>= chosen plan) = .ok packages ∧
      (syncPackages settings w plan packages).result = .ok synced ∧
      (indexAll settings now (jobs settings w plan packages synced)).run client =
        (results, last) ∧
      summary = .of packages.length results := by
  unfold run at h
  dsimp only at h
  split at h
  · exact absurd (congrArg (·.1.1) h) nofun
  · rename_i packages hpackages
    split at h
    · exact absurd (congrArg (·.1.1) h) nofun
    · rename_i synced hsynced
      obtain ⟨results, after, hresults⟩ : ∃ results after,
          (indexAll settings now (jobs settings w plan packages synced)).run client =
            (results, after) := ⟨_, _, rfl⟩
      have hindexed := hresults
      unfold jobs at hindexed
      rw [StateT.run_bind, hindexed] at h
      obtain ⟨houtcome, rfl⟩ := Prod.mk.inj h
      exact ⟨packages, synced, results, hpackages, hsynced, hresults,
        (Except.ok.inj (Prod.mk.inj houtcome).1).symm⟩

theorem length_indexAll (settings : Settings) (now : String) (jobs : List (Package × Checkout))
    (client : Client) :
    ((indexAll settings now jobs).run client).1.length = jobs.length := by
  induction jobs generalizing client with
  | nil => rfl
  | cons job rest ih => rw [run_indexAll_cons, List.length_cons, ih, List.length_cons]

/-- **Which functions are in the store after a scrape.**  If every package has a checkout and is
indexed without a failure, then the functions of its checkout are all in the store just when the
last package with its identifier has them as well.  That is so if the identifiers are different, and
these are if the names are and have no underscores. -/
theorem run_retains {w : Surroundings} {plan : Plan} {summary : Summary} {trace : Trace}
    (hempty : client.store = .empty)
    (hrun : (run settings now w plan).run client = ((.ok summary, trace), last))
    (hsynced : summary.synced = summary.packages) (hfailed : summary.failed = 0) :
    ∃ packages synced,
      ((Catalog.ofExchange (Catalog.request w.network true settings.catalogUrl)).mapError
        Error.catalog >>= chosen plan) = .ok packages ∧
      (syncPackages settings w plan packages).result = .ok synced ∧
      synced.map (·.1) = packages ∧
      (∀ job ∈ jobs settings w plan packages synced, ∃ drafts heir kept,
        Indexing.collected settings job.1 job.2 = .ok drafts ∧
        lastWith? (jobs settings w plan packages synced) job.1.name.identifier = some heir ∧
        Indexing.collected settings heir.1 heir.2 = .ok kept ∧
        (Retains settings last.store drafts ↔ drafts.Subperm kept)) ∧
      ((packages.map (·.name.identifier)).Nodup →
        ∀ job ∈ jobs settings w plan packages synced, ∃ drafts,
          Indexing.collected settings job.1 job.2 = .ok drafts ∧
          Retains settings last.store drafts) ∧
      ((∀ package ∈ packages, '_' ∉ package.name.text.toList) → (packages.map (·.name)).Nodup →
        (packages.map (·.name.identifier)).Nodup) := by
  obtain ⟨packages, synced, results, hpackages, hresult, hindexed, rfl⟩ := run_eq_ok hrun
  have hok : ∀ result ∈ results, result.toBool = true := by
    intro result hmem
    simpa using List.countP_eq_zero.mp hfailed result hmem
  have hall : synced.map (·.1) = packages := by
    have hlength : results.length = synced.length := by
      have hindexes := length_indexAll settings now (jobs settings w plan packages synced) client
      rwa [hindexed, jobs, List.length_map] at hindexes
    refine (sublist_syncPackages hresult).eq_of_length ?_
    rw [List.length_map, ← hlength]
    exact hsynced
  have hstart : WellNumbered settings client.store 0 := hempty ▸ WellNumbered.empty settings
  obtain ⟨hcollected, hids⟩ := indexAll_holds hstart hindexed hok
  have heirs : ∀ job ∈ jobs settings w plan packages synced, ∃ drafts heir kept,
      Indexing.collected settings job.1 job.2 = .ok drafts ∧
      lastWith? (jobs settings w plan packages synced) job.1.name.identifier = some heir ∧
      Indexing.collected settings heir.1 heir.2 = .ok kept ∧
      (Retains settings last.store drafts ↔ drafts.Subperm kept) := by
    intro job hjob
    obtain ⟨drafts, hdrafts⟩ := hcollected job hjob
    cases hheir : lastWith? (jobs settings w plan packages synced) job.1.name.identifier with
    | none => exact absurd rfl (ne_of_lastWith?_eq_none hheir job hjob)
    | some heir =>
        obtain ⟨kept, n, hkept, hholds⟩ := (hids _).2 heir hheir
        have howned := Indexing.packageId_of_mem_collected hdrafts
        exact ⟨drafts, heir, kept, hdrafts, rfl, hkept, hholds.retains_iff howned⟩
  refine ⟨packages, synced, hpackages, hresult, hall, heirs, ?_, ?_⟩
  · intro hnodup job hjob
    obtain ⟨drafts, heir, kept, hdrafts, hheir, hkept, hiff⟩ := heirs job hjob
    have hdistinct : ((jobs settings w plan packages synced).map (·.1.name.identifier)).Nodup := by
      rwa [← hall, ← map_fst_jobs settings w plan packages synced, List.map_map] at hnodup
    obtain ⟨hmem, hid⟩ := of_lastWith?_eq_some hheir
    obtain rfl := List.inj_on_of_nodup_map hdistinct hmem hjob hid
    obtain rfl := Except.ok.inj (hdrafts.symm.trans hkept)
    exact ⟨drafts, hdrafts, hiff.mpr (.refl drafts)⟩
  · intro hplain hnodup
    have hmap := hnodup.map_on (f := PackageName.identifier) ?_
    · rwa [List.map_map] at hmap
    · intro m hm n hn hid
      obtain ⟨p, hp, rfl⟩ := List.mem_map.mp hm
      obtain ⟨q, hq, rfl⟩ := List.mem_map.mp hn
      exact PackageName.identifier_injective (hplain p hp) (hplain q hq) hid

/-! ## Two packages -/

/-- A catalog of two packages, and a host that has them: the first one has a function `f`, and the
second one has `g`. -/
def twoPackages (first second : String) : Surroundings where
  network :=
    [⟨"GET", "https://package.elm-lang.org/search.json", .ok {
      status := 200
      body := ("[\x7b\"name\": \"" ++ first ++ "\"\x7d, \x7b\"name\": \"" ++ second ++
        "\"\x7d]").toUTF8.toList
      location := none }⟩]
  remote :=
    { sources :=
        [("https://github.com/" ++ first,
          ⟨[(["src", "A.elm"], .file (.text "module A exposing (f)\nf : Int\nf = 0\n"))]⟩),
         ("https://github.com/" ++ second,
          ⟨[(["src", "B.elm"], .file (.text "module B exposing (g)\ng : Char\ng = 0\n"))]⟩)]
      conditions := [] }
  cacheDir := .ofText "/cache"
  root := .ofText "/cache"
  tree := .empty

/-- Packages with different identifiers: the functions of the first one are there. -/
theorem run_retains_sample :
    let outcome := (run {} "now" (twoPackages "x/y" "x/z") {}).run ⟨.empty, [], []⟩
    outcome.1.1 = .ok ⟨2, 2, 2, 0, 2⟩ ∧
      Retains {} outcome.2.store
        [{ packageId := "x__y", name := "f", signature := "Int", moduleName := "A" }] := by
  intro outcome
  let first : Package := { name := { author := "x", project := "y" } }
  let second : Package := { name := { author := "x", project := "z" } }
  have hdone : outcome.1.1 = .ok ⟨2, 2, 2, 0, 2⟩ := by decide +kernel
  have hrun : (run {} "now" (twoPackages "x/y" "x/z") {}).run ⟨.empty, [], []⟩ =
      ((.ok ⟨2, 2, 2, 0, 2⟩, outcome.1.2), outcome.2) :=
    Prod.ext (Prod.ext hdone rfl) rfl
  obtain ⟨packages, synced, hpackages, hsynced, -, -, hdistinct, -⟩ := run_retains rfl hrun rfl rfl
  obtain rfl : [first, second] = packages :=
    Except.ok.inj (Eq.trans (by decide +kernel) hpackages)
  obtain rfl : [(first, ["x", "y"]), (second, ["x", "z"])] = synced :=
    Except.ok.inj (Eq.trans (by decide +kernel) hsynced)
  obtain ⟨drafts, hdrafts, hretains⟩ := hdistinct (by decide +kernel) _ List.mem_cons_self
  obtain rfl : [{ packageId := "x__y", name := "f", signature := "Int", moduleName := "A" }] =
      drafts :=
    Except.ok.inj (Eq.trans (by decide +kernel) hdrafts)
  exact ⟨hdone, hretains⟩

/-- Two packages with different names and one identifier: both are indexed without a failure, and
the function of the first one is lost. -/
theorem run_loses :
    let outcome := (run {} "now" (twoPackages "x/y__z" "x__y/z") {}).run ⟨.empty, [], []⟩
    let first : Package := { name := { author := "x", project := "y__z" } }
    let second : Package := { name := { author := "x__y", project := "z" } }
    let draft : FunctionDraft :=
      { packageId := "x__y__z", name := "f", signature := "Int", moduleName := "A" }
    let synced := [(first, ["x", "y__z"]), (second, ["x__y", "z"])]
    outcome.1.1 = .ok ⟨2, 2, 2, 0, 2⟩ ∧
      first.name ≠ second.name ∧ first.name.identifier = second.name.identifier ∧
      ((Catalog.ofExchange (Catalog.request (twoPackages "x/y__z" "x__y/z").network true
        ({} : Settings).catalogUrl)).mapError Error.catalog >>= chosen {}) = .ok [first, second] ∧
      (syncPackages {} (twoPackages "x/y__z" "x__y/z") {} [first, second]).result = .ok synced ∧
      (∃ checkout,
        (first, checkout) ∈ jobs {} (twoPackages "x/y__z" "x__y/z") {} [first, second] synced ∧
          Indexing.collected {} first checkout = .ok [draft]) ∧
      ¬ Retains {} outcome.2.store [draft] := by
  intro outcome first second draft synced
  -- What is left in the store is about `g`.
  have hdone : outcome.1.1 = .ok ⟨2, 2, 2, 0, 2⟩ ∧ ∀ entry ∈ outcome.2.store.entries,
      Json.field? entry.2 "name" ≠ some (.str "f") := by
    decide +kernel
  refine ⟨hdone.1, by decide +kernel, by decide +kernel, by decide +kernel, by decide +kernel,
    ⟨_, List.mem_cons_self, by decide +kernel⟩, ?_⟩
  rintro ⟨records, hperm, -, hstored⟩
  obtain ⟨r, rfl, hr⟩ := List.map_eq_singleton_iff.mp (List.perm_singleton.mp hperm)
  refine hdone.2 _ (Store.get?_eq_some_iff.mp (hstored r List.mem_cons_self)) ?_
  have hname : r.name = "f" := congrArg FunctionDraft.name hr
  simp [Json.field?, FunctionRecord.toFields, hname]

end Scrape
end SignatureSearch
