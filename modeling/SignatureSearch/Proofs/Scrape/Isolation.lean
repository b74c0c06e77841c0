/-
# `Proofs.Scrape.Isolation` — packages that fail do not touch the others

A scrape indexes its packages one after the other, and goes on after one that
fails.  That one may have taken identifiers, written some of its functions and
changed its record.  If the counter of the store is sound, then none of this
reaches another package (`indexAll_follows`): what was handed out is not handed
out again, and only documents of the failing package are deleted.  So the
packages that are indexed have their own functions in the end, as in a run that
leaves the others out (`indexAll_isolates`).

A counter that is negative, or so large a floating point number that adding one
makes no difference, lets a package that fails decide about those after it
(`indexAll_depends`).
-/
import SignatureSearch.Proofs.Indexing.Succession
import SignatureSearch.Proofs.Scrape.Retention

namespace SignatureSearch

/-! ## All packages -/

namespace Scrape

open Database Indexing
open Store (Client)

variable {settings : Settings} {now : String} {client last : Client}
  {jobs : List (Package × Checkout)} {results : List (Except Indexing.Error Report)}

def indexed (jobs : List (Package × Checkout)) (results : List (Except Indexing.Error Report)) :
    List ((Package × Checkout) × Report) :=
  (jobs.zip results).filterMap fun (job, result) => result.toOption.map (job, ·)

def failing (jobs : List (Package × Checkout)) (results : List (Except Indexing.Error Report)) :
    List (Package × Checkout) :=
  (jobs.zip results).filterMap fun (job, result) => if result.toBool then none else some job

section Results

variable (job : Package × Checkout) (jobs : List (Package × Checkout)) (e : Indexing.Error)
  (report : Report) (results : List (Except Indexing.Error Report))

theorem indexed_cons_ok :
    indexed (job :: jobs) (.ok report :: results) = (job, report) :: indexed jobs results := rfl

theorem indexed_cons_error :
    indexed (job :: jobs) (.error e :: results) = indexed jobs results := rfl

theorem failing_cons_ok : failing (job :: jobs) (.ok report :: results) = failing jobs results :=
  rfl

theorem failing_cons_error :
    failing (job :: jobs) (.error e :: results) = job :: failing jobs results := rfl

end Results

def identifiers (jobs : List (Package × Checkout)) : List String :=
  jobs.map (·.1.name.identifier)

theorem indexAll_follows (hsound : IsSound (client.store.get? (counterKey settings)))
    (hdone : (indexAll settings now jobs).run client = (results, last)) :
    Follows settings (identifiers jobs) client.store last.store := by
  induction jobs generalizing client results with
  | nil =>
      obtain ⟨-, rfl⟩ := Prod.mk.inj hdone
      exact .of_within hsound (fun _ _ => rfl)
  | cons job rest ih =>
      obtain ⟨package, checkout⟩ := job
      have hfirst := @indexPackage_follows settings now package checkout client hsound
      rw [run_indexAll_cons] at hdone
      obtain ⟨-, rfl⟩ := Prod.mk.inj hdone
      exact hfirst.trans (ih hfirst.sound rfl)

/-- A package that is indexed has its functions in the end, and could be indexed from the start. -/
theorem indexAll_indexed (hsound : IsSound (client.store.get? (counterKey settings)))
    (hnodup : (identifiers jobs).Nodup)
    (hdone : (indexAll settings now jobs).run client = (results, last)) :
    ∀ entry ∈ indexed jobs results, Indexable settings client.store entry.1 ∧ ∃ drafts n,
      collected settings entry.1.1 entry.1.2 = .ok drafts ∧
      entry.2.functions = drafts.length ∧
      Holds settings last.store entry.1.1.name.identifier (numbered n drafts) := by
  induction jobs generalizing client results with
  | nil => exact nofun
  | cons job rest ih =>
      obtain ⟨package, checkout⟩ := job
      have hfollows := @indexPackage_follows settings now package checkout client hsound
      obtain ⟨hfresh, hrest⟩ := List.nodup_cons.mp hnodup
      obtain ⟨result, mid, hfirst⟩ : ∃ result mid,
          (indexPackage settings now package checkout).runOn client = (result, mid) := ⟨_, _, rfl⟩
      obtain ⟨others, last', hothers⟩ : ∃ others last',
          (indexAll settings now rest).run mid = (others, last') := ⟨_, _, rfl⟩
      rw [run_indexAll_cons, hfirst, hothers] at hdone
      obtain ⟨rfl, rfl⟩ := Prod.mk.inj hdone
      rw [hfirst] at hfollows
      have hlater : ∀ entry ∈ indexed rest others, Indexable settings client.store entry.1 ∧
          ∃ drafts n, collected settings entry.1.1 entry.1.2 = .ok drafts ∧
            entry.2.functions = drafts.length ∧
            Holds settings last'.store entry.1.1.name.identifier (numbered n drafts) := by
        intro entry hentry
        obtain ⟨hindexable, hstored⟩ := ih hfollows.sound hrest hothers entry hentry
        exact ⟨(indexable_iff hfollows).mp hindexable, hstored⟩
      cases result with
      | error e => exact hlater
      | ok report =>
          obtain ⟨hindexable, drafts, n, hcollected, hcount, hholds, hbeyond⟩ :=
            indexPackage_indexed hsound hfirst
          refine List.forall_mem_cons.mpr ⟨⟨hindexable, drafts, n, hcollected, hcount, ?_⟩, hlater⟩
          -- The packages after it have other identifiers, and get numbers above these.
          have hagree := (indexAll_follows hfollows.sound hothers).agree hfresh hholds.below hbeyond
          exact hagree.holds_iff.mp hholds

theorem indexAll_succeeds (hsound : IsSound (client.store.get? (counterKey settings)))
    (hfaults : client.faults = [])
    (hdone : (indexAll settings now jobs).run client = (results, last))
    (h : ∀ job ∈ jobs, Indexable settings client.store job) :
    ∀ result ∈ results, result.toBool = true := by
  induction jobs generalizing client results with
  | nil =>
      obtain ⟨rfl, -⟩ := Prod.mk.inj hdone
      exact nofun
  | cons job rest ih =>
      obtain ⟨package, checkout⟩ := job
      rw [List.forall_mem_cons] at h
      have hfollows := @indexPackage_follows settings now package checkout client hsound
      obtain ⟨report, mid, hfirst, hmid⟩ := @indexPackage_succeeds settings now package checkout
        client hsound hfaults h.1
      obtain ⟨others, last', hothers⟩ : ∃ others last',
          (indexAll settings now rest).run mid = (others, last') := ⟨_, _, rfl⟩
      rw [run_indexAll_cons, hfirst, hothers] at hdone
      obtain ⟨rfl, rfl⟩ := Prod.mk.inj hdone
      rw [hfirst] at hfollows
      refine List.forall_mem_cons.mpr ⟨rfl, ih hfollows.sound hmid hothers fun job hjob => ?_⟩
      exact (indexable_iff hfollows).mpr (h.2 job hjob)

/-! ## The summary -/

theorem length_indexed_failing (h : results.length = jobs.length) :
    (indexed jobs results).length = results.countP (·.toBool) ∧
      (failing jobs results).length = results.countP (!·.toBool) := by
  induction jobs generalizing results with
  | nil =>
      obtain rfl := List.length_eq_zero_iff.mp h
      exact ⟨rfl, rfl⟩
  | cons job rest ih =>
      obtain ⟨result, others, rfl⟩ := List.exists_cons_of_length_eq_add_one h
      obtain ⟨hindexed, hfailing⟩ := ih (Nat.succ.inj h)
      cases result with
      | error e =>
          rw [indexed_cons_error, failing_cons_error, List.length_cons, hindexed, hfailing,
            List.countP_cons, List.countP_cons]
          exact ⟨rfl, rfl⟩
      | ok report =>
          rw [indexed_cons_ok, failing_cons_ok, List.length_cons, hindexed, hfailing,
            List.countP_cons, List.countP_cons]
          exact ⟨rfl, rfl⟩

/-- The stored functions are counted for each package that was indexed. -/
theorem foldl_storedFunctions (h : results.length = jobs.length) (n : Nat) :
    results.foldl (fun n result => n + storedFunctions result) n =
      n + ((indexed jobs results).map (·.2.functions)).sum := by
  induction jobs generalizing results n with
  | nil =>
      obtain rfl := List.length_eq_zero_iff.mp h
      rfl
  | cons job rest ih =>
      obtain ⟨result, others, rfl⟩ := List.exists_cons_of_length_eq_add_one h
      rw [List.foldl_cons, ih (Nat.succ.inj h)]
      cases result with
      | error e => rfl
      | ok report =>
          rw [indexed_cons_ok, List.map_cons, List.sum_cons]
          exact Nat.add_assoc _ _ _

theorem identifiers_indexed_sublist (jobs : List (Package × Checkout))
    (results : List (Except Indexing.Error Report)) :
    (identifiers ((indexed jobs results).map (·.1))).Sublist (identifiers jobs) := by
  induction jobs generalizing results with
  | nil => exact .slnil
  | cons job rest ih =>
      cases results with
      | nil => exact List.nil_sublist _
      | cons result others =>
          cases result with
          | error e => exact (ih others).cons _
          | ok report => exact (ih others).cons_cons _

theorem exists_indexed (h : results.length = jobs.length)
    (hok : ∀ result ∈ results, result.toBool = true) :
    ∀ job ∈ jobs, ∃ report, (job, report) ∈ indexed jobs results := by
  induction jobs generalizing results with
  | nil => exact nofun
  | cons job rest ih =>
      obtain ⟨result, others, rfl⟩ := List.exists_cons_of_length_eq_add_one h
      rw [List.forall_mem_cons] at hok
      cases result with
      | error e => exact absurd hok.1 nofun
      | ok report =>
          refine List.forall_mem_cons.mpr ⟨⟨report, List.mem_cons_self⟩, fun job' hjob' => ?_⟩
          obtain ⟨report', hmem⟩ := ih (Nat.succ.inj h) hok.2 job' hjob'
          exact ⟨report', List.mem_cons_of_mem _ hmem⟩

/-! ## Packages apart from each other -/

/-- **Packages that fail do not touch the others.**  From a store with a sound counter all packages
are worked on, whatever is refused.  The summary counts those that fail, and the documents of the
others.  If just these others are indexed, from the same store and with nothing refused, then all of
them are; and whenever all of them are, each has the same functions in both stores, but perhaps with
other identifiers. -/
theorem indexAll_isolates (packages : Nat)
    (hsound : IsSound (client.store.get? (counterKey settings)))
    (hnodup : (identifiers jobs).Nodup)
    (hdone : (indexAll settings now jobs).run client = (results, last)) :
    results.length = jobs.length ∧
    (Summary.of packages results).synced = jobs.length ∧
    (Summary.of packages results).indexed + (Summary.of packages results).failed =
      (Summary.of packages results).synced ∧
    (Summary.of packages results).indexed = (indexed jobs results).length ∧
    (Summary.of packages results).failed = (failing jobs results).length ∧
    (Summary.of packages results).functions = ((indexed jobs results).map fun entry =>
      (idsOf settings last.store entry.1.1.name.identifier).length).sum ∧
    ∀ (other last' : Client) (others : List (Except Indexing.Error Report)),
      other.store = client.store →
      (indexAll settings now ((indexed jobs results).map (·.1))).run other = (others, last') →
      (other.faults = [] → ∀ result ∈ others, result.toBool = true) ∧
      ((∀ result ∈ others, result.toBool = true) → ∀ entry ∈ indexed jobs results,
        ∃ drafts n n', collected settings entry.1.1 entry.1.2 = .ok drafts ∧
          entry.2.functions = drafts.length ∧
          Holds settings last.store entry.1.1.name.identifier (numbered n drafts) ∧
          Holds settings last'.store entry.1.1.name.identifier (numbered n' drafts)) := by
  have hlength : results.length = jobs.length := by
    have hall := length_indexAll settings now jobs client
    rwa [hdone] at hall
  obtain ⟨hindexed, hfailing⟩ := length_indexed_failing hlength
  have hstored := indexAll_indexed hsound hnodup hdone
  refine ⟨hlength, hlength, ?_, hindexed.symm, hfailing.symm, ?_, ?_⟩
  · have hcount := @List.length_eq_countP_add_countP _ (fun result => result.toBool) results
    simpa [Summary.of] using hcount.symm
  · have hcounts : (indexed jobs results).map (·.2.functions) = (indexed jobs results).map
        fun entry => (idsOf settings last.store entry.1.1.name.identifier).length := by
      refine List.map_congr_left fun entry hentry => ?_
      obtain ⟨-, drafts, n, -, hcount, hholds⟩ := hstored entry hentry
      rw [hcount, hholds.length_idsOf]
    rw [← hcounts]
    exact (foldl_storedFunctions hlength 0).trans (Nat.zero_add _)
  · intro other last' others hstore hothers
    have hsound' : IsSound (other.store.get? (counterKey settings)) := hstore ▸ hsound
    have hnodup' := hnodup.sublist (identifiers_indexed_sublist jobs results)
    have hlength' : others.length = ((indexed jobs results).map (·.1)).length := by
      have hall := length_indexAll settings now ((indexed jobs results).map (·.1)) other
      rwa [hothers] at hall
    constructor
    · intro hfaults
      refine indexAll_succeeds hsound' hfaults hothers fun job hjob => ?_
      obtain ⟨entry, hentry, rfl⟩ := List.mem_map.mp hjob
      exact hstore ▸ (hstored entry hentry).1
    · intro hok entry hentry
      obtain ⟨report, hreport⟩ :=
        exists_indexed hlength' hok entry.1 (List.mem_map_of_mem hentry)
      obtain ⟨-, drafts, n, hcollected, hcount, hholds⟩ := hstored entry hentry
      obtain ⟨-, drafts', n', hcollected', -, hholds'⟩ :=
        indexAll_indexed hsound' hnodup' hothers (entry.1, report) hreport
      obtain rfl := Except.ok.inj (hcollected'.symm.trans hcollected)
      exact ⟨drafts', n, n', hcollected, hcount, hholds, hholds'⟩

/-- A checkout at this path with one source file in `src`. -/
def withSource (names : List String) (file text : String) : Checkout where
  files := ⟨[(names ++ ["src", file], .file (.text text))]⟩
  path := ⟨.slash, names⟩

/-- A package with one function, of type `Int`. -/
def intPackage : Package × Checkout :=
  ({ name := { author := "x", project := "y" } },
    withSource ["x", "y"] "A.elm" "module A exposing (f)\nf : Int\nf = 0\n")

/-- A package with one function, of type `Char`. -/
def charPackage : Package × Checkout :=
  ({ name := { author := "x", project := "z" } },
    withSource ["x", "z"] "B.elm" "module B exposing (g)\ng : Char\ng = 0\n")

/-- The first package takes an identifier and fails then; the second one has its function, with the
next identifier, and with the first one if it is alone. -/
theorem indexAll_isolates_sample :
    let draft : FunctionDraft :=
      { packageId := "x__z", name := "g", signature := "Char", moduleName := "B" }
    let outcome := (indexAll {} "now" [intPackage, charPackage]).run
      ⟨.empty, [⟨.commitBatch, 0, 1, .runtime, "busy"⟩], []⟩
    let alone := (indexAll {} "now" [charPackage]).run ⟨.empty, [], []⟩
    Summary.of 2 outcome.1 = ⟨2, 2, 1, 1, 1⟩ ∧ ∃ n n',
      Holds {} outcome.2.store charPackage.1.name.identifier (numbered n [draft]) ∧
      Holds {} alone.2.store charPackage.1.name.identifier (numbered n' [draft]) := by
  intro draft outcome alone
  have hrun : Summary.of 2 outcome.1 = ⟨2, 2, 1, 1, 1⟩ ∧
      (indexed [intPackage, charPackage] outcome.1).map (·.1) = [charPackage] := by
    decide +kernel
  obtain ⟨hsummary, hothers⟩ := hrun
  have hsound : IsSound (Store.empty.get? (counterKey {})) := nofun
  obtain ⟨-, -, -, -, -, -, hapart⟩ := @indexAll_isolates {} "now"
    ⟨.empty, [⟨.commitBatch, 0, 1, .runtime, "busy"⟩], []⟩ outcome.2 [intPackage, charPackage]
    outcome.1 2 hsound (by decide +kernel) rfl
  obtain ⟨entry, hentries, hentry⟩ := List.map_eq_singleton_iff.mp hothers
  obtain ⟨hall, hsame⟩ := hapart ⟨.empty, [], []⟩ alone.2 alone.1 rfl (by rw [hothers]; rfl)
  obtain ⟨drafts, n, n', hcollected, -, hholds, hholds'⟩ :=
    hsame (hall rfl) entry (hentries ▸ List.mem_cons_self)
  rw [hentry] at hcollected hholds hholds'
  obtain rfl : [draft] = drafts := Except.ok.inj (Eq.trans (by decide +kernel) hcollected)
  exact ⟨hsummary, n, n', hholds, hholds'⟩

/-- A store with nothing but a counter, and the number at which it stands. -/
def counting (next : Json) : Client :=
  ⟨⟨[(counterKey {}, [("next", next)])], List.nodup_singleton _⟩, [], []⟩

/-- Whether a package is indexed only if the one before it fails: after that one it has a function,
and alone it fails and has none. -/
def Depends (client : Client) : Prop :=
  let both := (indexAll {} "now" [intPackage, charPackage]).run client
  let alone := (indexAll {} "now" [charPackage]).run client
  ((indexed [intPackage, charPackage] both.1).map (·.1) = [charPackage] ∧
    (idsOf {} both.2.store charPackage.1.name.identifier).length = 1) ∧
  failing [charPackage] alone.1 = [charPackage] ∧
    idsOf {} alone.2.store charPackage.1.name.identifier = []

/-- With a counter that is no sound one, a package that fails decides about the one after it: it
moves the counter to a number that can be handed out.  Without it, the other one fails. -/
theorem indexAll_depends :
    Depends (counting (.int (-1))) ∧
      Depends (counting (.float (.ofDecimal false 45035996273704955 (-1)))) :=
  ⟨⟨by decide +kernel, by decide +kernel⟩, by decide +kernel, by decide +kernel⟩

end Scrape
end SignatureSearch
