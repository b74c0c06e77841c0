/-
# `Proofs.Indexing.Storing` — what indexing a package leaves in the store

A package that is indexed without a failure has exactly the functions of its
checkout in the store, under its identifier and with the next free numbers
(`indexPackage_holds`); functions under other identifiers are what they were.
The identifier is all that tells the functions of packages apart.  What is
collected from one file is said by `forall₂_drafts`.
-/
import SignatureSearch.Indexing
import SignatureSearch.Proofs.Database.Replacement

namespace SignatureSearch.Indexing

open Database
open Store (Action Client perform)

variable {α β : Type} {settings : Settings} {client after : Client}

/-! ## Running jobs -/

/-- The result of a job, and the client afterwards. -/
def Job.runOn (job : Job α) (client : Client) : Except Error α × Client :=
  job.run.run client

theorem Job.runOn_bind (job : Job α) (next : α → Job β) (client : Client) :
    Job.runOn (job >>= next) client =
      match job.runOn client with
      | (.ok a, client) => (next a).runOn client
      | (.error e, client) => (.error e, client) := by
  simp only [Job.runOn, ExceptT.run_bind, StateT.run_bind]
  rcases job.run.run client with ⟨result, mid⟩
  cases result <;> rfl

theorem Job.runOn_bind_eq_ok {job : Job α} {next : α → Job β} {b : β} :
    Job.runOn (job >>= next) client = (.ok b, after) ↔
      ∃ a mid, job.runOn client = (.ok a, mid) ∧ (next a).runOn mid = (.ok b, after) := by
  rw [Job.runOn_bind]
  obtain ⟨_ | a, mid⟩ := job.runOn client
  · simp
  · simp [and_assoc]

theorem Job.runOn_pure_eq_ok {a b : α} :
    (pure a : Job α).runOn client = (.ok b, after) ↔ b = a ∧ after = client := by
  have hpure : (pure a : Job α).runOn client = (.ok a, client) := rfl
  rw [hpure, Prod.mk.injEq, Except.ok.injEq, eq_comm, eq_comm (a := client)]

theorem Job.runOn_ofAction_eq_ok {action : Action α} {a : α} :
    (Job.ofAction action).runOn client = (.ok a, after) ↔
      perform action client = (.ok a, after) := by
  have hmap : (Job.ofAction action).runOn client =
      ((perform action client).1.mapError Error.store, (perform action client).2) := rfl
  rw [hmap]
  rcases perform action client with ⟨_ | b, mid⟩ <;> simp [Except.mapError]

theorem Job.runOn_liftM_eq_ok {result : Except Error α} {a : α} :
    (liftM result : Job α).runOn client = (.ok a, after) ↔ result = .ok a ∧ after = client := by
  have hlift : (liftM result : Job α).runOn client = (result, client) := by
    cases result <;> rfl
  rw [hlift, Prod.mk.injEq, eq_comm (a := client)]

/-! ## Records of packages -/

theorem agree_of_within (h : Store.Within (packages settings) client after) (id : String) :
    Agree settings id client.store after.store := by
  intro key fields hof
  rw [h key (hof.1 ▸ (packages_ne_functions settings).symm)]

theorem agree_trans {id : String} {a b c : Store} (hab : Agree settings id a b)
    (hbc : Agree settings id b c) : Agree settings id a c :=
  fun key fields hof => (hab key fields hof).trans (hbc key fields hof)

/-! ## The functions of a module -/

/-- The name and the terms of an exported function that has a signature. -/
def annotated? : Elm.ExportEntry → Option (String × List String)
  | .function name (some terms) => some (name, terms)
  | .function _ none => none
  | .type .. => none

/-- What is to be stored of a function: its signature in normal form, and the name of its module
unless that is empty. -/
structure IsDraftOf (packageId moduleName : String) (f : String × List String)
    (draft : FunctionDraft) : Prop where
  packageId_eq : draft.packageId = packageId
  name_eq : draft.name = f.1
  signature_eq : draft.signature = Signature.normalize f.2
  moduleName_eq : moduleName ≠ "" → draft.moduleName = some moduleName
  moduleName_none : moduleName = "" → draft.moduleName = none

/-- **What is collected from a module**: its exported functions that have a signature, each of them
once and in their order. -/
theorem forall₂_drafts (packageId moduleName : String) (exports : List Elm.ExportEntry) :
    List.Forall₂ (IsDraftOf packageId moduleName) (exports.filterMap annotated?)
      (drafts packageId moduleName exports) := by
  induction exports with
  | nil => exact .nil
  | cons e rest ih =>
      cases e with
      | type name definition => exact ih
      | function name signature =>
          cases signature with
          | none => exact ih
          | some terms =>
              exact .cons ⟨rfl, rfl, rfl, fun hname => if_neg hname, fun hname => if_pos hname⟩ ih

theorem packageId_of_mem_drafts {packageId moduleName : String} {exports : List Elm.ExportEntry}
    {draft : FunctionDraft} (h : draft ∈ drafts packageId moduleName exports) :
    draft.packageId = packageId := by
  have hall := forall₂_drafts packageId moduleName exports
  generalize drafts packageId moduleName exports = found at h hall
  generalize exports.filterMap annotated? = annotated at hall
  induction hall with
  | nil => cases h
  | cons hone _ ih =>
      rcases List.mem_cons.mp h with rfl | hrest
      · exact hone.packageId_eq
      · exact ih hrest

/-! ## The functions of a checkout -/

/-- The functions in the files of a package, as they are to be stored. -/
def collected (settings : Settings) (package : Package) (checkout : Checkout) :
    Except Error (List FunctionDraft) :=
  (fileOutcomes settings package.name.identifier checkout).map fun outcomes =>
    outcomes.flatMap (·.functions)

theorem packageId_of_mem_readFile {packageId path : String} {node : Option FileTree.Node}
    {draft : FunctionDraft} (h : draft ∈ (readFile packageId path node).functions) :
    draft.packageId = packageId := by
  unfold readFile at h
  split at h
  · split at h
    · exact packageId_of_mem_drafts h
    · exact absurd h (by simp [FileOutcome.functions])
  · exact absurd h (by simp [FileOutcome.functions])

theorem packageId_of_mem_fileOutcome {packageId path : String} {checkout : Checkout}
    {exposed : Option (List Json)} {outcome : FileOutcome} {draft : FunctionDraft}
    (h : fileOutcome settings packageId checkout exposed path = .ok outcome)
    (hdraft : draft ∈ outcome.functions) : draft.packageId = packageId := by
  unfold fileOutcome at h
  dsimp only at h
  split at h
  · exact packageId_of_mem_readFile (Except.ok.inj h ▸ hdraft)
  · obtain ⟨module, -, h⟩ := Store.bind_eq_ok.mp h
    obtain rfl := Except.ok.inj h
    split at hdraft
    · exact packageId_of_mem_readFile hdraft
    · exact absurd hdraft (by simp [FileOutcome.functions])

theorem exists_of_mem_fileOutcomes {packageId : String} {checkout : Checkout}
    {outcomes : List FileOutcome} {outcome : FileOutcome}
    (h : fileOutcomes settings packageId checkout = .ok outcomes) (hmem : outcome ∈ outcomes) :
    ∃ path exposed, fileOutcome settings packageId checkout exposed path = .ok outcome := by
  obtain ⟨paths, -, hlisted⟩ := Store.bind_eq_ok.mp h
  obtain ⟨exposed, -, hread⟩ := Store.bind_eq_ok.mp hlisted
  obtain ⟨path, -, hpath⟩ := Store.exists_of_mem_mapM hread hmem
  exact ⟨path, exposed, hpath⟩

theorem packageId_of_mem_collected {package : Package} {checkout : Checkout}
    {drafts : List FunctionDraft} (h : collected settings package checkout = .ok drafts) :
    ∀ draft ∈ drafts, draft.packageId = package.name.identifier := by
  cases hread : fileOutcomes settings package.name.identifier checkout with
  | error e =>
      rw [collected, hread] at h
      exact absurd h (by simp [Except.map])
  | ok outcomes =>
      rw [collected, hread] at h
      obtain rfl := Except.ok.inj h
      intro draft hdraft
      obtain ⟨outcome, houtcome, hfound⟩ := List.mem_flatMap.mp hdraft
      obtain ⟨path, exposed, hfile⟩ := exists_of_mem_fileOutcomes hread houtcome
      exact packageId_of_mem_fileOutcome hfile hfound

/-! ## One package -/

theorem storeFunctions_eq_ok {now packageId : String} {drafts : List FunctionDraft}
    {records : List FunctionRecord}
    (h : perform (storeFunctions settings now packageId drafts) client = (.ok records, after)) :
    perform (replaceFunctions settings packageId drafts) client = (.ok records, after) := by
  rw [storeFunctions, Store.perform_tryCatch] at h
  generalize perform (replaceFunctions settings packageId drafts) client = outcome at h
  obtain ⟨failure | records', mid⟩ := outcome
  · -- What is done after a failure ends with this failure.
    obtain ⟨_, _, -, hthrow⟩ := Store.perform_bind_eq_ok.mp h
    exact absurd (Prod.mk.inj hthrow).1 (by simp)
  · exact h

theorem indexPackage_eq_ok {now : String} {package : Package} {checkout : Checkout} {report : Report}
    (h : (indexPackage settings now package checkout).runOn client = (.ok report, after)) :
    ∃ drafts records first second,
      collected settings package checkout = .ok drafts ∧
      (perform (upsertPackage settings (started settings now package)) client).2 = first ∧
      perform (replaceFunctions settings package.name.identifier drafts) first =
        (.ok records, second) ∧
      (perform (updatePackage settings now package.name.identifier (completion report)) second).2 =
        after := by
  obtain ⟨_, first, hupsert, h₁⟩ := Job.runOn_bind_eq_ok.mp h
  obtain ⟨outcomes, mid, hlift, h₂⟩ := Job.runOn_bind_eq_ok.mp h₁
  obtain ⟨hread, rfl⟩ := Job.runOn_liftM_eq_ok.mp hlift
  obtain ⟨records, second, hstore, h₃⟩ := Job.runOn_bind_eq_ok.mp h₂
  obtain ⟨_, last, hupdate, h₄⟩ := Job.runOn_bind_eq_ok.mp h₃
  obtain ⟨rfl, rfl⟩ := Job.runOn_pure_eq_ok.mp h₄
  have hcollected : collected settings package checkout =
      .ok (outcomes.flatMap (·.functions)) := by
    rw [collected, hread]
    rfl
  refine ⟨_, records, mid, second, hcollected, ?_, ?_, ?_⟩
  · rw [Job.runOn_ofAction_eq_ok.mp hupsert]
  · exact storeFunctions_eq_ok (Job.runOn_ofAction_eq_ok.mp hstore)
  · rw [Job.runOn_ofAction_eq_ok.mp hupdate]

/-- **What indexing a package leaves in the store.**  If nothing fails, its functions are there with
the next numbers, and no others under its identifier; functions under other identifiers are what
they were. -/
theorem indexPackage_holds {now : String} {package : Package} {checkout : Checkout} {report : Report}
    {n : Nat} (h : WellNumbered settings client.store n)
    (hdone : (indexPackage settings now package checkout).runOn client = (.ok report, after)) :
    ∃ drafts, collected settings package checkout = .ok drafts ∧
      WellNumbered settings after.store (n + drafts.length) ∧
      Holds settings after.store package.name.identifier (numbered n drafts) ∧
      ∀ id ≠ package.name.identifier, Agree settings id client.store after.store := by
  obtain ⟨drafts, records, first, second, hcollected, hupsert, hreplace, hupdate⟩ :=
    indexPackage_eq_ok hdone
  have howned : ∀ r ∈ numbered n drafts, r.packageId = package.name.identifier :=
    fun r => packageId_of_mem_numbered (packageId_of_mem_collected hcollected)
  have hbefore := within_upsertPackage settings (started settings now package) client
  have hafter := within_updatePackage settings now package.name.identifier (completion report) second
  rw [hupsert] at hbefore
  rw [hupdate] at hafter
  obtain ⟨rfl, hexchanged, hcounts⟩ := (h.of_within hbefore).replaced hreplace
  have hsecond : WellNumbered settings second.store (n + drafts.length) :=
    hexchanged.wellNumbered (h.of_within hbefore) hcounts (Nat.le_add_right n _)
      fun r hr => (mem_numbered hr).2.1
  refine ⟨drafts, hcollected, hsecond.of_within hafter, ?_, fun id hne => ?_⟩
  · exact (agree_of_within hafter _).holds_iff.mp (hexchanged.holds howned)
  · have hreplaced := hexchanged.agree howned (List.Subset.refl _) hne
    exact agree_trans (agree_trans (agree_of_within hbefore id) hreplaced)
      (agree_of_within hafter id)

end SignatureSearch.Indexing
