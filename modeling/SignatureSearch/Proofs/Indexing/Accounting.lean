/-
# `Proofs.Indexing.Accounting` — what a run says about its files

Every file of the listing ends in one of four ways (`Becomes`), which its path
and its content decide, the manifest being given:

                 counted as    said of it      stored of it
    skipped      skipped       nothing         nothing
    unreadable   failed        one error       nothing
    not parsed   failed        one error       nothing
    parsed       processed     nothing         what it exports with a signature

The report adds these up, and so does the record of the package, which leaves
skipped files out.  A file that is changed moves its own entry from one row to
another, and nothing else (`indexPackage_accounts`).
-/
import SignatureSearch.Proofs.Indexing.Alteration
import SignatureSearch.Proofs.Indexing.Succession
import SignatureSearch.Proofs.Validation.Fields

namespace SignatureSearch

/-! ## Records of packages -/

namespace Package.Record

open Validation

theorem readCount_int (n : Nat) : readCount (.int n) = .valid n := by
  have hneg : ¬ (n : Int) < 0 := Int.not_lt.mpr (Int.natCast_nonneg n)
  simp [readCount, Validation.refine, integer, Checked.andThen, hneg]

theorem readStatus_text (status : Status) : readStatus (.str status.text) = .valid status := by
  simp [readStatus, Validation.refine, Validation.text, Checked.andThen, Status.ofText?_text]

theorem ofJson_toFields (r : Record) : ofJson (.obj r.toFields) = .valid r := by
  have hpackageId : required r.toFields "packageId" Validation.text = .valid r.packageId :=
    required_text (by simp [Json.field?, toFields])
  have hname : required r.toFields "name" Validation.text = .valid r.name :=
    required_text (by simp [Json.field?, toFields])
  have hurl : required r.toFields "url" Validation.text = .valid r.url :=
    required_text (by simp [Json.field?, toFields])
  have hlast : optional r.toFields "lastIndexed" Validation.text = .valid r.lastIndexed :=
    optional_text (by simp [Json.field?, toFields])
  have hstatus : defaulted r.toFields "status" .pending readStatus = .valid r.status :=
    defaulted_eq_valid (by simp [Json.field?, toFields]) (readStatus_text _) _
  have htotal : defaulted r.toFields "totalFiles" 0 readCount = .valid r.totalFiles :=
    defaulted_eq_valid (by simp [Json.field?, toFields]) (readCount_int _) _
  have hprocessed : defaulted r.toFields "processedFiles" 0 readCount = .valid r.processedFiles :=
    defaulted_eq_valid (by simp [Json.field?, toFields]) (readCount_int _) _
  have hfunctions : defaulted r.toFields "functionCount" 0 readCount = .valid r.functionCount :=
    defaulted_eq_valid (by simp [Json.field?, toFields]) (readCount_int _) _
  rw [ofJson, Validation.record, Checked.andThen, hpackageId, hname, hurl, hlast,
    hstatus, htotal, hprocessed, hfunctions]
  rfl

end Package.Record

theorem Database.length_of_replaceFunctions {settings : Settings} {packageId : String}
    {drafts : List FunctionDraft} {records : List FunctionRecord} {client after : Store.Client}
    (h : Store.perform (replaceFunctions settings packageId drafts) client = (.ok records, after)) :
    records.length = drafts.length := by
  obtain ⟨_, first, second, -, hrecord, -⟩ := replaceFunctions_ok h
  have hrecorded := @perform_record settings drafts first
  rw [hrecord] at hrecorded
  rcases hrecorded with ⟨rfl, rfl, -⟩ | ⟨-, start, fields, -, hnumber, -⟩
  · rfl
  · have hlength := (Store.forall₂_of_mapM_eq_ok hnumber).length_eq
    rw [List.length_zipIdx] at hlength
    exact hlength.symm

namespace Indexing

open Database
open Checkout (Alters exposed_put isExposed moduleName node?_put_of_ne node?_put_self sourceFiles
  sourceFiles_put)
open Store (Client fate perform)

variable {settings : Settings} {packageId path : String} {exposed : Option (List Json)}
  {node node' : Option FileTree.Node} {outcome outcome' : FileOutcome}
  {outcomes : List FileOutcome}

/-! ## One file -/

/-- A file whose module is not in the list of exposed ones. -/
def IsExcluded (settings : Settings) (exposed : Option (List Json)) (path : String) : Prop :=
  ∃ module, moduleName settings.sourceFolders path = .ok module ∧ isExposed exposed module = false

/-- A file whose module counts: there is no list of exposed modules, or the module is in it. -/
def IsIncluded (settings : Settings) (exposed : Option (List Json)) (path : String) : Prop :=
  exposed = none ∨
    ∃ module, moduleName settings.sourceFolders path = .ok module ∧ isExposed exposed module = true

theorem IsIncluded.not_excluded (h : IsIncluded settings exposed path) :
    ¬ IsExcluded settings exposed path := by
  rintro ⟨module, hmodule, hhidden⟩
  rcases h with rfl | ⟨module', hmodule', hshown⟩
  · cases hhidden
  · obtain rfl := Except.ok.inj (hmodule.symm.trans hmodule')
    exact absurd (hhidden.symm.trans hshown) Bool.false_ne_true

/-- What becomes of a file, by its path and what is found there. -/
inductive Becomes (settings : Settings) (packageId : String) (exposed : Option (List Json))
    (path : String) (node : Option FileTree.Node) : FileOutcome → Prop
  | skipped : IsExcluded settings exposed path →
      Becomes settings packageId exposed path node .skipped
  | unreadable : IsIncluded settings exposed path →
      (∀ content, node ≠ some (.file content)) →
      Becomes settings packageId exposed path node (.failed s!"{path}: {unreadable}")
  | unparsed {content : SourceFile.Content} {failure : SourceFile.Failure} :
      IsIncluded settings exposed path → node = some (.file content) →
      SourceFile.read path content = .error failure →
      Becomes settings packageId exposed path node (.failed s!"{path}: {failure.message}")
  | parsed {content : SourceFile.Content} {m : Elm.Module} :
      IsIncluded settings exposed path → node = some (.file content) →
      SourceFile.read path content = .ok m →
      Becomes settings packageId exposed path node (.indexed (drafts packageId m.name m.exports))

theorem becomes_iff :
    Becomes settings packageId exposed path node outcome ↔
      (IsExcluded settings exposed path ∧ outcome = .skipped) ∨
        (IsIncluded settings exposed path ∧ outcome = readFile packageId path node) := by
  constructor
  · intro h
    cases h with
    | skipped hexcluded => exact Or.inl ⟨hexcluded, rfl⟩
    | unreadable hincluded hnone =>
        refine Or.inr ⟨hincluded, ?_⟩
        unfold readFile
        split
        · exact absurd rfl (hnone _)
        · rfl
    | unparsed hincluded hnode hread =>
        refine Or.inr ⟨hincluded, ?_⟩
        unfold readFile
        rw [hnode]
        dsimp only
        rw [hread]
    | parsed hincluded hnode hread =>
        refine Or.inr ⟨hincluded, ?_⟩
        unfold readFile
        rw [hnode]
        dsimp only
        rw [hread]
  · rintro (⟨hexcluded, rfl⟩ | ⟨hincluded, rfl⟩)
    · exact .skipped hexcluded
    · unfold readFile
      split
      · rename_i content
        cases hread : SourceFile.read path content with
        | error failure => exact .unparsed hincluded rfl hread
        | ok m => exact .parsed hincluded rfl hread
      · rename_i hnone
        exact .unreadable hincluded fun content heq => hnone content heq

/-- The path of a file and what is found there decide what becomes of it. -/
theorem Becomes.unique (h : Becomes settings packageId exposed path node outcome)
    (h' : Becomes settings packageId exposed path node outcome') : outcome' = outcome := by
  rcases becomes_iff.mp h with ⟨hexcluded, rfl⟩ | ⟨hincluded, rfl⟩
  · rcases becomes_iff.mp h' with ⟨-, rfl⟩ | ⟨hincluded', -⟩
    · rfl
    · exact absurd hexcluded hincluded'.not_excluded
  · rcases becomes_iff.mp h' with ⟨hexcluded', -⟩ | ⟨-, rfl⟩
    · exact absurd hexcluded' hincluded.not_excluded
    · rfl

theorem fileOutcome_eq_ok_iff {checkout : Checkout} :
    fileOutcome settings packageId checkout exposed path = .ok outcome ↔
      Becomes settings packageId exposed path (checkout.node? (.ofText path)) outcome := by
  rw [becomes_iff]
  generalize hnode : checkout.node? (.ofText path) = node
  rw [fileOutcome, hnode]
  cases exposed with
  | none =>
      have hincluded : IsIncluded settings none path := Or.inl rfl
      have hexcluded := hincluded.not_excluded
      show (.ok (readFile packageId path node) : Except Error FileOutcome) = .ok outcome ↔ _
      simp [hincluded, hexcluded, eq_comm]
  | some names =>
      show ((moduleName settings.sourceFolders path).mapError Error.path >>= fun module =>
        .ok (if isExposed (some names) module then readFile packageId path node else .skipped)) =
          .ok outcome ↔ _
      cases hmodule : moduleName settings.sourceFolders path with
      | error e =>
          refine iff_of_false nofun ?_
          rintro (⟨⟨module, h, -⟩, -⟩ | ⟨h | ⟨module, h, -⟩, -⟩)
          · exact absurd (hmodule.symm.trans h) nofun
          · exact absurd h nofun
          · exact absurd (hmodule.symm.trans h) nofun
      | ok module =>
          have hexcluded : IsExcluded settings (some names) path ↔
              isExposed (some names) module = false := by
            simp [IsExcluded, hmodule]
          have hincluded : IsIncluded settings (some names) path ↔
              isExposed (some names) module = true := by
            simp [IsIncluded, hmodule]
          rw [hexcluded, hincluded]
          show (.ok (if isExposed (some names) module then readFile packageId path node
            else .skipped) : Except Error FileOutcome) = .ok outcome ↔ _
          cases isExposed (some names) module <;> simp [eq_comm]

theorem Becomes.exists_other (h : Becomes settings packageId exposed path node outcome)
    (node' : Option FileTree.Node) :
    ∃ outcome', Becomes settings packageId exposed path node' outcome' ∧
      outcome'.isSkipped = outcome.isSkipped := by
  have hread : ∀ found, (readFile packageId path found).isSkipped = false := by
    intro found
    unfold readFile
    split
    · split <;> rfl
    · rfl
  rcases becomes_iff.mp h with ⟨hexcluded, rfl⟩ | ⟨hincluded, rfl⟩
  · exact ⟨.skipped, .skipped hexcluded, rfl⟩
  · exact ⟨_, becomes_iff.mpr (Or.inr ⟨hincluded, rfl⟩), (hread node').trans (hread node).symm⟩

/-! ## All files -/

/-- The files of a package are read if each of them is, in the order of the listing. -/
theorem fileOutcomes_eq_ok_iff_becomes {checkout : Checkout} :
    fileOutcomes settings packageId checkout = .ok outcomes ↔
      ∃ paths exposed, sourceFiles settings checkout = .ok paths ∧
        checkout.exposed = .ok exposed ∧
        List.Forall₂ (fun path => Becomes settings packageId exposed path
          (checkout.node? (.ofText path))) paths outcomes := by
  simp only [fileOutcomes_eq_ok_iff, fileOutcome_eq_ok_iff]

theorem forall₂_append_cons {α β : Type} {R : α → β → Prop} {as bs : List α} {a : α} {l : List β}
    (h : List.Forall₂ R (as ++ a :: bs) l) :
    ∃ xs x ys, l = xs ++ x :: ys ∧ List.Forall₂ R as xs ∧ R a x ∧ List.Forall₂ R bs ys := by
  induction as generalizing l with
  | nil =>
      cases h with
      | cons ha hbs => exact ⟨[], _, _, rfl, .nil, ha, hbs⟩
  | cons a' as ih =>
      cases h with
      | cons ha' hrest =>
          obtain ⟨xs, x, ys, rfl, has, ha, hbs⟩ := ih hrest
          exact ⟨_ :: xs, x, ys, rfl, .cons ha' has, ha, hbs⟩

theorem fileOutcomes_put {checkout : Checkout} {names : List String} {node : FileTree.Node}
    {listed : List String} (h : Alters settings checkout names node)
    (hlisting : sourceFiles settings checkout = .ok listed)
    (hexposed : checkout.exposed = .ok exposed)
    (hall : List.Forall₂ (fun path => Becomes settings packageId exposed path
      (checkout.node? (.ofText path))) listed outcomes) :
    ∃ paths path paths' before outcome outcome' later,
      listed = paths ++ path :: paths' ∧
      checkout.place? (.ofText path) = some names ∧
      outcomes = before ++ outcome :: later ∧ before.length = paths.length ∧
      Becomes settings packageId exposed path (some node) outcome' ∧
      outcome'.isSkipped = outcome.isSkipped ∧
      fileOutcomes settings packageId (checkout.put names node) =
        .ok (before ++ outcome' :: later) := by
  obtain ⟨paths, path, paths', rfl, hpath, hothers⟩ := h.exists_path hlisting
  obtain ⟨before, outcome, later, rfl, hbefore, houtcome, hlater⟩ := forall₂_append_cons hall
  obtain ⟨outcome', houtcome', hskipped⟩ := houtcome.exists_other (some node)
  refine ⟨paths, path, paths', before, outcome, outcome', later, rfl, hpath, rfl,
    hbefore.length_eq.symm, houtcome', hskipped, ?_⟩
  -- What the other paths lead to is not changed.
  have hsame : ∀ {others found}, others ⊆ paths ++ paths' →
      List.Forall₂ (fun path => Becomes settings packageId exposed path
        (checkout.node? (.ofText path))) others found →
      List.Forall₂ (fun path => Becomes settings packageId exposed path
        ((checkout.put names node).node? (.ofText path))) others found := by
    intro others found hsubset hfound
    have helsewhere : ∀ other ∈ others, checkout.place? (.ofText other) ≠ some names :=
      fun other hother => hothers other (hsubset hother)
    refine ((List.forall₂_and_left _ _).mpr ⟨helsewhere, hfound⟩).imp fun other outcome hother => ?_
    rw [node?_put_of_ne h.toReplaces hother.1]
    exact hother.2
  rw [fileOutcomes_eq_ok_iff_becomes]
  refine ⟨_, exposed, sourceFiles_put h.toReplaces hlisting,
    (exposed_put h.toReplaces h.ne_manifest).trans hexposed, ?_⟩
  refine List.rel_append (hsame (List.subset_append_left _ _) hbefore) (.cons ?_ ?_)
  · rw [node?_put_self h.toReplaces hpath]
    exact houtcome'
  · exact hsame (List.subset_append_right _ _) hlater

/-! ## The report -/

theorem length_eq_add (outcomes : List FileOutcome) :
    outcomes.length = outcomes.countP (·.isIndexed) + outcomes.countP (·.isFailed) +
      outcomes.countP (·.isSkipped) := by
  induction outcomes with
  | nil => rfl
  | cons outcome rest ih =>
      have hone : (if outcome.isIndexed then 1 else 0) + (if outcome.isFailed then 1 else 0) +
          (if outcome.isSkipped then 1 else 0) = 1 := by
        cases outcome <;> rfl
      rw [List.length_cons, List.countP_cons, List.countP_cons, List.countP_cons, ih]
      omega

theorem length_errors (outcomes : List FileOutcome) :
    (outcomes.filterMap (·.error?)).length = outcomes.countP (·.isFailed) := by
  induction outcomes with
  | nil => rfl
  | cons outcome rest ih =>
      rw [List.countP_cons]
      cases outcome with
      | skipped => exact ih
      | failed error => exact congrArg (· + 1) ih
      | indexed functions => exact ih

/-- How the reports of two runs differ that found one file in two states. -/
structure DiffersBy (outcome outcome' : FileOutcome) (report report' : Report) : Prop where
  totalFiles : report'.totalFiles = report.totalFiles
  skipped : report'.skipped = report.skipped
  processed : report'.processed + [outcome].countP (·.isIndexed) =
    report.processed + [outcome'].countP (·.isIndexed)
  failed : report'.failed + [outcome].countP (·.isFailed) =
    report.failed + [outcome'].countP (·.isFailed)
  functions : report'.functions + outcome.functions.length =
    report.functions + outcome'.functions.length
  errors : ∃ before later, report.errors = before ++ outcome.error?.toList ++ later ∧
    report'.errors = before ++ outcome'.error?.toList ++ later

/-- The report for the outcomes of the files, and all of their functions stored. -/
def reportOf (package : PackageName) (outcomes : List FileOutcome) : Report :=
  .of package outcomes (outcomes.flatMap (·.functions)).length

theorem differsBy_reportOf (package : PackageName) (before later : List FileOutcome)
    (h : outcome'.isSkipped = outcome.isSkipped) :
    DiffersBy outcome outcome' (reportOf package (before ++ outcome :: later))
      (reportOf package (before ++ outcome' :: later)) where
  totalFiles := by simp [reportOf, Report.of]
  skipped := by simp [reportOf, Report.of, List.countP_cons, h]
  processed := by
    simp only [reportOf, Report.of, List.countP_append, List.countP_cons, List.countP_nil]
    omega
  failed := by
    simp only [reportOf, Report.of, List.countP_append, List.countP_cons, List.countP_nil]
    omega
  functions := by
    simp only [reportOf, Report.of, List.flatMap_append, List.flatMap_cons, List.length_append]
    omega
  errors := by
    refine ⟨before.filterMap (·.error?), later.filterMap (·.error?), ?_, ?_⟩
    · cases hone : outcome.error? <;> simp [reportOf, Report.of, hone]
    · cases hone : outcome'.error? <;> simp [reportOf, Report.of, hone]

/-! ## The run -/

variable {now : String} {package : Package} {checkout : Checkout} {client after : Client}
  {report : Report}

/-- The functions of the files are passed to the store in one call, and these records come back. -/
def Passes (settings : Settings) (now : String) (package : Package) (client mid : Client)
    (outcomes : List FileOutcome) (records : List FunctionRecord) : Prop :=
  perform (replaceFunctions settings package.name.identifier (outcomes.flatMap (·.functions)))
    (begun settings now package client) = (.ok records, mid)

/-- A run that returns has passed the functions of all files to the store. -/
theorem indexPackage_passes
    (h : (indexPackage settings now package checkout).runOn client = (.ok report, after)) :
    ∃ outcomes records mid,
      fileOutcomes settings package.name.identifier checkout = .ok outcomes ∧
      Passes settings now package client mid outcomes records ∧
      records.length = report.functions ∧ report = reportOf package.name outcomes ∧
      after = (perform (updatePackage settings now package.name.identifier (completion report))
        mid).2 := by
  obtain ⟨outcomes, records, mid, hread, hreplace, hreport, hafter⟩ := indexPackage_returns h
  refine ⟨outcomes, records, mid, hread, hreplace, ?_, ?_, hafter⟩
  · rw [hreport]
    rfl
  · rw [hreport, length_of_replaceFunctions hreplace]
    rfl

/-- The record of a package after a run with this report. -/
def completed (settings : Settings) (now : String) (package : Package) (report : Report) :
    Package.Record :=
  { started settings now package with
    status := .completed
    totalFiles := report.processed + report.failed
    processedFiles := report.processed
    functionCount := report.functions }

/-- A completed package has failures just when some of its files failed. -/
theorem hasFailures_completed :
    (completed settings now package report).hasFailures = true ↔ 0 < report.failed := by
  simp [completed, Package.Record.hasFailures]
  omega

theorem IsStarted.completed (h : IsStarted settings now package client)
    (hupdate : fate .update client.faults 0 = none)
    (htotal : report.totalFiles = report.processed + report.failed + report.skipped) :
    (perform (updatePackage settings now package.name.identifier (completion report))
      client).2.store.get? (packageKey settings package.name.identifier) =
        some (Indexing.completed settings now package report).toFields := by
  refine (h.get?_updated hupdate (completion report)).trans (congrArg some ?_)
  have hcounted : (report.totalFiles - report.skipped : Int) =
      ((report.processed + report.failed : Nat) : Int) := by
    omega
  simp [Json.setField, Json.ofOption, Package.Record.toFields, started, completion,
    Indexing.completed, hcounted]

/-- What a run says and leaves, told from what became of the files. -/
structure Accounts (settings : Settings) (now : String) (package : Package) (client after : Client)
    (report : Report) (outcomes : List FileOutcome) : Prop where
  total : report.totalFiles = report.processed + report.failed + report.skipped
  listed : report.totalFiles = outcomes.length
  processed : report.processed = outcomes.countP (·.isIndexed)
  failed : report.failed = outcomes.countP (·.isFailed)
  skipped : report.skipped = outcomes.countP (·.isSkipped)
  /-- The errors stand in the order of the files. -/
  errors : report.errors = outcomes.filterMap (·.error?)
  length_errors : report.errors.length = report.failed
  passed : ∃ records mid, Passes settings now package client mid outcomes records ∧
    records.length = report.functions
  functions : report.functions = (outcomes.flatMap (·.functions)).length
  /-- Every stored function has a document of its own, if the counter is sound. -/
  documents : IsSound (client.store.get? (counterKey settings)) →
    (idsOf settings after.store package.name.identifier).length = report.functions
  stored : ∃ record : Package.Record,
    after.store.get? (packageKey settings package.name.identifier) = some record.toFields ∧
      Package.Record.ofJson (.obj record.toFields) = .valid record ∧
      record.totalFiles = report.processed + report.failed ∧
      record.processedFiles = report.processed ∧ record.functionCount = report.functions ∧
      (record.hasFailures = true ↔ 0 < report.failed)

/-- A run that returns keeps its accounts, if the record of the package can be written. -/
theorem accounts_of_returns {outcomes : List FileOutcome}
    (hset : fate .set client.faults 0 = none) (hupdate : fate .update client.faults 0 = none)
    (hread : fileOutcomes settings package.name.identifier checkout = .ok outcomes)
    (hdone : (indexPackage settings now package checkout).runOn client = (.ok report, after)) :
    Accounts settings now package client after report outcomes := by
  obtain ⟨outcomes', records, mid, hread', hpassed, hlength, hreport, hafter⟩ :=
    indexPackage_passes hdone
  obtain rfl := Except.ok.inj (hread'.symm.trans hread)
  have htotal : report.totalFiles = report.processed + report.failed + report.skipped := by
    rw [hreport]
    exact length_eq_add outcomes'
  obtain ⟨hstarted, hspares⟩ := @isStarted_begun settings now package client hset
  have hreplaced := @IsStarted.replaced settings now package _
    (outcomes'.flatMap (·.functions)) package.name.identifier hstarted
  have hfate := (spares_update_replaceFunctions settings package.name.identifier
    (outcomes'.flatMap (·.functions)) (begun settings now package client)).fate_eq 0
  rw [hspares.fate_eq, hupdate] at hfate
  rw [show perform _ _ = _ from hpassed] at hreplaced hfate
  have hrecord := hreplaced.completed hfate htotal
  rw [← hafter] at hrecord
  refine
    { total := htotal
      listed := by rw [hreport]; rfl
      processed := by rw [hreport]; rfl
      failed := by rw [hreport]; rfl
      skipped := by rw [hreport]; rfl
      errors := by rw [hreport]; rfl
      length_errors := by rw [hreport]; exact length_errors outcomes'
      passed := ⟨records, mid, hpassed, hlength⟩
      functions := by rw [hreport]; rfl
      documents := fun hsound => ?_
      stored := ⟨_, hrecord, Package.Record.ofJson_toFields _, rfl, rfl, rfl,
        hasFailures_completed⟩ }
  obtain ⟨-, drafts, n, -, hfunctions, hholds, -⟩ := indexPackage_indexed hsound hdone
  rw [hholds.length_idsOf, hfunctions]

/-- **The accounts of a run.**  If a run returns and the record of the package can be written, then
every file of the listing has become what its path and its content make of it, and these outcomes
are what the report and the record add up, and what is passed to the store.  If one file is changed,
then the same files are listed, and another run that returns finds the same outcomes except for that
file: what it passes to the store, what it counts and the errors it reports differ by that file. -/
theorem indexPackage_accounts
    (hset : fate .set client.faults 0 = none) (hupdate : fate .update client.faults 0 = none)
    (hdone : (indexPackage settings now package checkout).runOn client = (.ok report, after)) :
    ∃ listed exposed outcomes, sourceFiles settings checkout = .ok listed ∧
      checkout.exposed = .ok exposed ∧
      List.Forall₂ (fun path => Becomes settings package.name.identifier exposed path
        (checkout.node? (.ofText path))) listed outcomes ∧
      (∀ path node outcome outcome',
        Becomes settings package.name.identifier exposed path node outcome →
        Becomes settings package.name.identifier exposed path node outcome' →
        outcome' = outcome) ∧
      Accounts settings now package client after report outcomes ∧
      ∀ names node, Alters settings checkout names node →
        ∃ paths path paths' before outcome outcome' later,
          listed = paths ++ path :: paths' ∧
          sourceFiles settings (checkout.put names node) = .ok listed ∧
          checkout.place? (.ofText path) = some names ∧
          outcomes = before ++ outcome :: later ∧ before.length = paths.length ∧
          Becomes settings package.name.identifier exposed path (some node) outcome' ∧
          fileOutcomes settings package.name.identifier (checkout.put names node) =
            .ok (before ++ outcome' :: later) ∧
          ∀ now' client' report' after',
            (indexPackage settings now' package (checkout.put names node)).runOn client' =
              (.ok report', after') →
            (∃ records mid,
              Passes settings now' package client' mid (before ++ outcome' :: later) records) ∧
            DiffersBy outcome outcome' report report' := by
  obtain ⟨outcomes, -, -, hread, -, -, hreport, -⟩ := indexPackage_passes hdone
  obtain ⟨listed, exposed, hlisting, hexposed, hall⟩ := fileOutcomes_eq_ok_iff_becomes.mp hread
  refine ⟨listed, exposed, outcomes, hlisting, hexposed, hall, fun _ _ _ _ => Becomes.unique,
    accounts_of_returns hset hupdate hread hdone, ?_⟩
  intro names node halters
  obtain ⟨paths, path, paths', before, outcome, outcome', later, hlisted, hpath, rfl, hlength,
    houtcome, hskipped, hread'⟩ := fileOutcomes_put halters hlisting hexposed hall
  refine ⟨paths, path, paths', before, outcome, outcome', later, hlisted,
    sourceFiles_put halters.toReplaces hlisting, hpath, rfl, hlength, houtcome, hread', ?_⟩
  intro now' client' report' after' hdone'
  obtain ⟨outcomes', records, mid, hfound, hpassed, -, hreport', -⟩ := indexPackage_passes hdone'
  obtain rfl := Except.ok.inj (hfound.symm.trans hread')
  refine ⟨⟨records, mid, hpassed⟩, ?_⟩
  rw [hreport, hreport']
  exact differsBy_reportOf package.name before later hskipped

/-- A package whose files are one of each kind: the second has no header, and the third is none of
the exposed modules. -/
def threeFiles : Checkout where
  files :=
    ⟨[(["x", "y", "elm.json"], .file (.text "\x7b\"exposed-modules\": [\"A\", \"B\"]\x7d")),
      (["x", "y", "src", "A.elm"], oneFunction),
      (["x", "y", "src", "B.elm"], .file (.text "b : Int\n")),
      (["x", "y", "src", "C.elm"], .unreadable)]⟩
  path := ⟨.slash, ["x", "y"]⟩

theorem sourceFiles_threeFiles :
    sourceFiles {} threeFiles = .ok ["src/A.elm", "src/B.elm", "src/C.elm"] := by
  have hfolders : ∀ folder ∈ ({} : Settings).sourceFolders,
      (Path.ofText folder).IsDescending := by
    decide
  obtain ⟨paths, hlisting⟩ := Checkout.exists_sourceFiles hfolders threeFiles
  obtain ⟨-, hsorted, hperm⟩ := Checkout.sourceFiles_eq_ok_iff.mp hlisting
  have hfound : Checkout.listing {} threeFiles = ["src/A.elm", "src/B.elm", "src/C.elm"] := by
    decide +kernel
  rw [hlisting, List.Perm.eq_of_pairwise' hsorted (by decide) (hfound ▸ hperm)]

/-- The package is indexed, and again with another second file: it is counted with the first one
then. -/
theorem indexPackage_accounts_sample :
    let package : Package := { name := { author := "x", project := "y" } }
    let client : Client := ⟨.empty, [], []⟩
    let run := (indexPackage {} "now" package threeFiles).runOn client
    let run' := (indexPackage {} "now" package
      (threeFiles.put ["x", "y", "src", "B.elm"] oneFunction)).runOn client
    ∃ report report' outcomes outcome outcome',
      run = (.ok report, run.2) ∧ run' = (.ok report', run'.2) ∧
      report.processed = 1 ∧ report'.processed = 2 ∧
      Accounts {} "now" package client run.2 report outcomes ∧
      DiffersBy outcome outcome' report report' := by
  intro package client run run'
  have hset : fate .set client.faults 0 = none := rfl
  have hupdate : fate .update client.faults 0 = none := rfl
  have halters : Alters {} threeFiles ["x", "y", "src", "B.elm"] oneFunction :=
    { distinct := by decide
      isFile := by decide
      ne_directory := nofun
      ne_manifest := by decide +kernel
      once := ⟨_, sourceFiles_threeFiles, by decide +kernel⟩ }
  have hread : fileOutcomes {} package.name.identifier threeFiles =
      .ok [.indexed [⟨"x__y", "f", "Int", "A"⟩],
        .failed "src/B.elm: Error parsing elm file: no module declaration found (at offset 0)",
        .skipped] := by
    rw [fileOutcomes_of_sourceFiles sourceFiles_threeFiles]
    decide +kernel
  have hread' : fileOutcomes {} package.name.identifier
      (threeFiles.put ["x", "y", "src", "B.elm"] oneFunction) =
      .ok [.indexed [⟨"x__y", "f", "Int", "A"⟩], .indexed [⟨"x__y", "f", "Int", "A"⟩],
        .skipped] := by
    rw [fileOutcomes_of_sourceFiles (sourceFiles_put halters.toReplaces sourceFiles_threeFiles)]
    decide +kernel
  have hrun := runOn_indexPackage {} "now" package threeFiles client
  have hrun' := runOn_indexPackage {} "now" package
    (threeFiles.put ["x", "y", "src", "B.elm"] oneFunction) client
  rw [hread] at hrun
  rw [hread'] at hrun'
  have hdone : run = (.ok ⟨package.name, 3, 1, 1, 1, 1,
      ["src/B.elm: Error parsing elm file: no module declaration found (at offset 0)"]⟩,
      run.2) :=
    Prod.ext ((congrArg Prod.fst hrun).trans (by decide +kernel)) rfl
  have hdone' : run' = (.ok ⟨package.name, 3, 2, 0, 1, 2, []⟩, run'.2) :=
    Prod.ext ((congrArg Prod.fst hrun').trans (by decide +kernel)) rfl
  obtain ⟨listed, exposed, outcomes, -, -, -, -, haccounts, halone⟩ :=
    indexPackage_accounts hset hupdate hdone
  obtain ⟨paths, path, paths', before, outcome, outcome', later, -, -, -, -, -, -, -, hruns⟩ :=
    halone _ _ halters
  exact ⟨_, _, outcomes, outcome, outcome', hdone, hdone', rfl, rfl, haccounts,
    (hruns _ _ _ _ hdone').2⟩

end Indexing
end SignatureSearch
