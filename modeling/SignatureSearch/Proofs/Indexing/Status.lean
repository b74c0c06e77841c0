/-
# `Proofs.Indexing.Status` — what the record of a package says in the end

While a package is indexed its record says that it is processed.  What can go
wrong after that:

    a file        is counted, and the others go on
    the names     every source file has a module name (`exists_moduleName`)
    the store     the failure is noted in the record
    the listing   nothing is noted
    the manifest  nothing is noted

So a run that returns leaves a completed package, and one that fails in the
store a failed one.  A source file that is not below the checkout stops the run
as well, and so does a manifest that is nested too deep, or that has a list or a
mapping in the place of a name; then the record goes on to say that the package
is processed (`indexPackage_ends`).
-/
import SignatureSearch.Proofs.Indexing.Folders
import SignatureSearch.Proofs.Indexing.Storing

namespace SignatureSearch

/-! ## Source files and the manifest -/

namespace Checkout

variable {checkout : Checkout}

theorem exists_moduleName {path : String} (h : (Path.ofText path).names ≠ [])
    (folders : List String) : ∃ m, moduleName folders path = .ok m := by
  obtain ⟨stem, hstem⟩ : ∃ stem, (Path.ofText path).withoutSuffix? = some stem := by
    refine Option.isSome_iff_exists.mp ?_
    rw [Path.withoutSuffix?, Option.isSome_map, Path.lastName?, List.getLast?_isSome]
    exact h
  exact ⟨_, by rw [moduleName, hstem]⟩

/-- A list or a mapping: what cannot be in a set. -/
def isContainer : Json → Bool
  | .arr _ | .obj _ => true
  | _ => false

/-- The values that stand in the places of names in the field of the exposed modules. -/
def valuesIn : Option Json → List Json
  | some (.arr names) => names
  | some (.obj groups) =>
    groups.flatMap fun (_, group) =>
      match group with
      | .arr names => names
      | _ => []
  | _ => []

/-- The values that a manifest has in the places of names of exposed modules. -/
def listed (data : Option Json) : List Json :=
  valuesIn ((data.bind Json.fields?).bind (Json.field? · exposedField))

/-- The first list or mapping among some values makes it impossible to take them as a set. -/
theorem foldlM_addElement_eq_error {found values : List Json} {e : ManifestError} :
    values.foldlM addElement found = .error e ↔
      ∃ v, values.find? isContainer = some v ∧ e = .notAName v.kindName := by
  induction values generalizing found with
  | nil => exact ⟨nofun, nofun⟩
  | cons v rest ih =>
      rw [List.foldlM_cons, List.find?_cons]
      cases v with
      | arr items =>
          constructor
          · intro h
            exact ⟨_, rfl, (Except.error.inj h).symm⟩
          · rintro ⟨v, hv, rfl⟩
            obtain rfl := Option.some.inj hv
            rfl
      | obj fields =>
          constructor
          · intro h
            exact ⟨_, rfl, (Except.error.inj h).symm⟩
          · rintro ⟨v, hv, rfl⟩
            obtain rfl := Option.some.inj hv
            rfl
      | null => exact ih
      | bool b => exact ih
      | int n => exact ih
      | float x => exact ih
      | str s => exact ih

/-- Why the exposed modules cannot be told: the manifest is nested too deep, or there is a list or
a mapping where the name of a module is expected. -/
def Unusable (checkout : Checkout) (e : ManifestError) : Prop :=
  (∃ container, manifest checkout = .error (.tooDeep container) ∧ e = .tooDeep container) ∨
    ∃ data v, manifest checkout = .ok data ∧ (listed data).find? isContainer = some v ∧
      e = .notAName v.kindName

theorem manifestData_eq_error {cs : List Char} {e : ManifestError}
    (h : manifestData cs = .error e) : ∃ container, e = .tooDeep container := by
  unfold manifestData at h
  split at h
  · exact absurd h nofun
  · exact ⟨_, (Except.error.inj h).symm⟩
  · exact absurd h nofun

theorem manifest_eq_error {e : ManifestError} (h : manifest checkout = .error e) :
    ∃ container, e = .tooDeep container := by
  unfold manifest at h
  split at h
  · exact manifestData_eq_error h
  · split at h
    · exact manifestData_eq_error h
    · exact absurd h nofun
  · exact absurd h nofun

theorem map_eq_error {α β ε : Type} {result : Except ε α} {f : α → β} {e : ε} :
    result.map f = .error e ↔ result = .error e := by
  cases result <;> simp [Except.map]

theorem exposed_eq_error_iff {e : ManifestError} : exposed checkout = .error e ↔ Unusable checkout e := by
  unfold exposed Unusable
  cases hmanifest : manifest checkout with
  | error e' =>
      obtain ⟨container, rfl⟩ := manifest_eq_error hmanifest
      simp only [bind, Except.bind, Except.error.injEq, ManifestError.tooDeep.injEq]
      constructor
      · rintro rfl
        exact Or.inl ⟨container, rfl, rfl⟩
      · rintro (⟨_, rfl, rfl⟩ | ⟨_, _, h, -⟩)
        · rfl
        · exact absurd h nofun
  | ok data =>
      have hlisted : (∃ data' v, (.ok data : Except ManifestError (Option Json)) = .ok data' ∧
          (listed data').find? isContainer = some v ∧ e = .notAName v.kindName) ↔
          ∃ v, (listed data).find? isContainer = some v ∧ e = .notAName v.kindName := by
        constructor
        · rintro ⟨data', v, hdata, hv⟩
          obtain rfl := Except.ok.inj hdata
          exact ⟨v, hv⟩
        · rintro ⟨v, hv⟩
          exact ⟨data, v, rfl, hv⟩
      rw [or_iff_right (by rintro ⟨_, h, -⟩; exact absurd h nofun), hlisted]
      dsimp only [bind, Except.bind]
      unfold listed
      generalize (data.bind Json.fields?).bind (Json.field? · exposedField) = field
      have hnothing : (∃ v, ([] : List Json).find? isContainer = some v ∧
          e = .notAName v.kindName) ↔ False := by
        simp
      rcases field with _ | v
      · exact iff_of_false nofun hnothing.mp
      · cases v with
        | arr names => exact map_eq_error.trans foldlM_addElement_eq_error
        | obj groups => exact map_eq_error.trans foldlM_addElement_eq_error
        | null => exact iff_of_false nofun hnothing.mp
        | bool b => exact iff_of_false nofun hnothing.mp
        | int n => exact iff_of_false nofun hnothing.mp
        | float x => exact iff_of_false nofun hnothing.mp
        | str s => exact iff_of_false nofun hnothing.mp

theorem exists_manifest {names : List Json} (h : exposed checkout = .ok (some names)) :
    ∃ node, checkout.node? (.ofText manifestName) = some node := by
  cases hnode : checkout.node? (.ofText manifestName) with
  | some node => exact ⟨node, rfl⟩
  | none =>
      have hmanifest : manifest checkout = .ok none := by
        rw [manifest, hnode]
      rw [exposed, hmanifest] at h
      cases h

end Checkout

theorem Package.Status.ofText?_text (status : Package.Status) :
    ofText? status.text = some status := by
  cases status <;> decide

namespace Indexing

open Database
open Store (Client Fixes Keeps Spares fate perform)

variable {settings : Settings} {now : String} {package : Package} {checkout : Checkout}
  {client : Client}

theorem fileOutcomes_of_sourceFiles {packageId : String} {paths : List String}
    (h : Checkout.sourceFiles settings checkout = .ok paths) :
    fileOutcomes settings packageId checkout =
      (checkout.exposed.mapError .manifest) >>= fun exposed =>
        paths.mapM (fileOutcome settings packageId checkout exposed) := by
  rw [fileOutcomes, h]
  rfl

theorem exists_fileOutcome (hfiles : checkout.files.IsProper) {paths : List String}
    (hlisting : Checkout.sourceFiles settings checkout = .ok paths)
    {exposed : Option (List Json)} (hexposed : checkout.exposed = .ok exposed) {path : String}
    (hpath : path ∈ paths) (packageId : String) :
    ∃ outcome, fileOutcome settings packageId checkout exposed path = .ok outcome := by
  unfold fileOutcome
  cases exposed with
  | none => exact ⟨_, rfl⟩
  | some names =>
      obtain ⟨node, hmanifest⟩ := Checkout.exists_manifest hexposed
      obtain ⟨m, hm⟩ := Checkout.exists_moduleName
        (Checkout.names_of_mem_sourceFiles hfiles hlisting hpath hmanifest) settings.sourceFolders
      exact ⟨_, by rw [hm]; rfl⟩

/-- Reading the files of a package fails with their listing, or with the manifest. -/
theorem fileOutcomes_eq_error_iff (hfiles : checkout.files.IsProper) {packageId : String}
    {e : Error} :
    fileOutcomes settings packageId checkout = .error e ↔
      (∃ e', e = .listing e' ∧ Checkout.sourceFiles settings checkout = .error e') ∨
        ∃ e', e = .manifest e' ∧ (∃ paths, Checkout.sourceFiles settings checkout = .ok paths) ∧
          Checkout.Unusable checkout e' := by
  cases hlisting : Checkout.sourceFiles settings checkout with
  | error e' =>
      rw [fileOutcomes, hlisting]
      constructor
      · intro herror
        exact Or.inl ⟨e', (Except.error.inj herror).symm, rfl⟩
      · rintro (⟨e'', rfl, he⟩ | ⟨_, _, ⟨_, hpaths⟩, _⟩)
        · obtain rfl := Except.error.inj he
          rfl
        · cases hpaths
  | ok paths =>
      rw [fileOutcomes_of_sourceFiles hlisting]
      cases hexposed : checkout.exposed with
      | error e' =>
          constructor
          · intro herror
            exact Or.inr ⟨e', (Except.error.inj herror).symm, ⟨paths, rfl⟩,
              Checkout.exposed_eq_error_iff.mp hexposed⟩
          · rintro (⟨_, _, he⟩ | ⟨e'', rfl, -, hunusable⟩)
            · cases he
            · rw [← Checkout.exposed_eq_error_iff, hexposed] at hunusable
              obtain rfl := Except.error.inj hunusable
              rfl
      | ok exposed =>
          obtain ⟨outcomes, hall⟩ := Store.exists_mapM_eq_ok_iff.mpr fun path hpath =>
            exists_fileOutcome hfiles hlisting hexposed hpath packageId
          constructor
          · intro herror
            cases hall.symm.trans herror
          · rintro (⟨_, _, he⟩ | ⟨e', -, -, hunusable⟩)
            · cases he
            · rw [← Checkout.exposed_eq_error_iff, hexposed] at hunusable
              cases hunusable

/-! ## The course of a run -/

/-- Storing functions does what replacing them does; a failure is noted in the record then. -/
theorem perform_storeFunctions (settings : Settings) (now packageId : String)
    (drafts : List FunctionDraft) (client : Client) :
    perform (storeFunctions settings now packageId drafts) client =
      match perform (replaceFunctions settings packageId drafts) client with
      | (.ok records, mid) => (.ok records, mid)
      | (.error e, mid) =>
        (.error e, (perform (updatePackage settings now packageId failure) mid).2) := by
  rw [storeFunctions, Store.perform_tryCatch]
  rcases perform (replaceFunctions settings packageId drafts) client with ⟨e | records, mid⟩
  · obtain ⟨noted, hnoted⟩ : ∃ noted, perform (updatePackage settings now packageId failure) mid =
        (.ok noted, (perform (updatePackage settings now packageId failure) mid).2) :=
      Store.exists_orElse _ _ mid
    dsimp only
    rw [Store.perform_bind, hnoted]
    rfl
  · rfl

theorem Job.runOn_ofAction {α : Type} (action : Store.Action α) (client : Client) :
    (Job.ofAction action).runOn client =
      ((perform action client).1.mapError Error.store, (perform action client).2) := rfl

theorem Job.runOn_liftM {α : Type} (result : Except Error α) (client : Client) :
    (liftM result : Job α).runOn client = (result, client) := by
  cases result <;> rfl

/-- The client when a run has stored the record of its package. -/
def begun (settings : Settings) (now : String) (package : Package) (client : Client) : Client :=
  (perform (upsertPackage settings (started settings now package)) client).2

/-- A run stores the record of its package, reads the files, stores the functions, and brings the
record up to date. -/
theorem runOn_indexPackage (settings : Settings) (now : String) (package : Package)
    (checkout : Checkout) (client : Client) :
    (indexPackage settings now package checkout).runOn client =
      match fileOutcomes settings package.name.identifier checkout with
      | .error e => (.error e, begun settings now package client)
      | .ok outcomes =>
        match perform (replaceFunctions settings package.name.identifier
            (outcomes.flatMap (·.functions))) (begun settings now package client) with
        | (.error e, mid) =>
          (.error (.store e),
            (perform (updatePackage settings now package.name.identifier failure) mid).2)
        | (.ok records, mid) =>
          (.ok (.of package.name outcomes records.length),
            (perform (updatePackage settings now package.name.identifier
              (completion (.of package.name outcomes records.length))) mid).2) := by
  obtain ⟨stored, hstored⟩ : ∃ stored,
      perform (upsertPackage settings (started settings now package)) client =
        (.ok stored, begun settings now package client) :=
    Store.exists_orElse _ _ client
  rw [indexPackage, Job.runOn_bind, Job.runOn_ofAction, hstored]
  dsimp only [Except.mapError]
  rw [Job.runOn_bind, Job.runOn_liftM]
  cases fileOutcomes settings package.name.identifier checkout with
  | error e => rfl
  | ok outcomes =>
      dsimp only
      rw [Job.runOn_bind, Job.runOn_ofAction, perform_storeFunctions]
      generalize perform (replaceFunctions settings package.name.identifier
        (outcomes.flatMap (·.functions))) (begun settings now package client) = replaced
      obtain ⟨e | records, mid⟩ := replaced
      · rfl
      · obtain ⟨noted, hnoted⟩ : ∃ noted,
            perform (updatePackage settings now package.name.identifier
              (completion (.of package.name outcomes records.length))) mid =
              (.ok noted, (perform (updatePackage settings now package.name.identifier
                (completion (.of package.name outcomes records.length))) mid).2) :=
          Store.exists_orElse _ _ mid
        dsimp only [Except.mapError]
        rw [Job.runOn_bind, Job.runOn_ofAction, hnoted]
        rfl

/-! ## The record in the end -/

/-- The record of a package says how far it has come. -/
def HasStatus (settings : Settings) (store : Store) (id : String) (status : Package.Status) :
    Prop :=
  ∃ fields, store.get? (packageKey settings id) = some fields ∧
    Json.field? fields "status" = some (.str status.text)

theorem HasStatus.unique {store : Store} {id : String} {status status' : Package.Status}
    (h : HasStatus settings store id status) (h' : HasStatus settings store id status') :
    status = status' := by
  obtain ⟨fields, hfields, hstatus⟩ := h
  obtain ⟨fields', hfields', hstatus'⟩ := h'
  obtain rfl := Option.some.inj (hfields.symm.trans hfields')
  have htext := Json.str.inj (Option.some.inj (hstatus.symm.trans hstatus'))
  rw [← Option.some_inj, ← Package.Status.ofText?_text, htext, Package.Status.ofText?_text]

/-- The record of a package that is stored is the one from the start of its run. -/
def IsStarted (settings : Settings) (now : String) (package : Package) (client : Client) : Prop :=
  client.store.get? (packageKey settings package.name.identifier) =
    some (started settings now package).toFields

theorem IsStarted.hasStatus (h : IsStarted settings now package client) :
    HasStatus settings client.store package.name.identifier .processing :=
  ⟨_, h, by simp [Json.field?, Package.Record.toFields, started]⟩

theorem isStarted_begun (h : fate .set client.faults 0 = none) :
    IsStarted settings now package (begun settings now package client) ∧
      Spares .update client (begun settings now package client) := by
  have hstored : begun settings now package client =
      { client.note (.set (packageKey settings package.name.identifier)) with
        store := client.store.put (packageKey settings package.name.identifier)
          (started settings now package).toFields } := by
    rw [begun, upsertPackage, Store.perform_orElse, Store.perform_bind,
      Store.perform_setDocument _ h]
    rfl
  rw [hstored]
  refine ⟨client.store.get?_put_self _ _, ?_⟩
  have hset : (Store.Call.set (packageKey settings package.name.identifier)).operation ≠ .update :=
    nofun
  have hnote := Store.spares_note hset client
  exact ⟨hnote.fate_eq, hnote.calls_eq⟩

theorem IsStarted.get?_updated (h : IsStarted settings now package client)
    (hupdate : fate .update client.faults 0 = none) (updates : Fields) :
    (perform (updatePackage settings now package.name.identifier updates)
      client).2.store.get? (packageKey settings package.name.identifier) =
        some ((Json.setField updates "lastIndexed" (.str now)).foldl
          (fun fields (k, v) => Json.setField fields k v)
          (started settings now package).toFields) := by
  rw [updatePackage, Store.perform_orElse, Store.perform_bind,
    Store.perform_updateDocument _ hupdate h]
  exact client.store.get?_put_self _ _

theorem IsStarted.updated (h : IsStarted settings now package client)
    (hupdate : fate .update client.faults 0 = none) {updates : Fields} {status : Package.Status}
    (hstatus : Json.field? ((Json.setField updates "lastIndexed" (.str now)).foldl
      (fun fields (k, v) => Json.setField fields k v) (started settings now package).toFields)
        "status" = some (.str status.text)) :
    HasStatus settings (perform (updatePackage settings now package.name.identifier updates)
      client).2.store package.name.identifier status :=
  ⟨_, h.get?_updated hupdate updates, hstatus⟩

/-- Replacing functions makes no difference to the record of a package. -/
theorem IsStarted.replaced {drafts : List FunctionDraft} {packageId : String}
    (h : IsStarted settings now package client) :
    IsStarted settings now package
      (perform (replaceFunctions settings packageId drafts) client).2 := by
  have hkey : (packageKey settings package.name.identifier).collection ≠ functions settings :=
    packages_ne_functions settings
  have hcounter : packageKey settings package.name.identifier ≠ counterKey settings :=
    fun heq => packages_ne_counters settings (congrArg DocumentKey.collection heq)
  exact Eq.trans (fixes_replaceFunctions hkey hcounter packageId drafts client) h

theorem spares_update_replaceFunctions (settings : Settings) (packageId : String)
    (drafts : List FunctionDraft) :
    Keeps (Spares .update) (replaceFunctions settings packageId drafts) :=
  @spares_replaceFunctions settings .update ⟨nofun, nofun, nofun, nofun⟩ nofun nofun packageId
    drafts

/-- How a run ends.  If the record of the package can be written, then it says that the package is
completed after a run that returns, and that it failed after one that fails in the store.  A run
fails otherwise just when a source file is astray, or else the manifest cannot be used; then the
record still says that the package is processed. -/
theorem indexPackage_ends {result : Except Error Report} {after : Client}
    (hset : fate .set client.faults 0 = none) (hupdate : fate .update client.faults 0 = none)
    (hfiles : checkout.files.IsProper)
    (hdone : (indexPackage settings now package checkout).runOn client = (result, after)) :
    (match result with
      | .ok _ => HasStatus settings after.store package.name.identifier .completed
      | .error (.store _) => HasStatus settings after.store package.name.identifier .failed
      | .error (.listing e) =>
        HasStatus settings after.store package.name.identifier .processing ∧
          Checkout.Astray settings checkout e.file ∧ e.checkout = checkout.path
      | .error (.manifest e) =>
        HasStatus settings after.store package.name.identifier .processing ∧
          Checkout.Unusable checkout e
      | .error (.path _) => False) ∧
      ((∃ e, result = .error (.listing e)) ↔ ∃ file, Checkout.Astray settings checkout file) ∧
      ∀ e, result = .error (.manifest e) ↔
        (∀ file, ¬ Checkout.Astray settings checkout file) ∧ Checkout.Unusable checkout e := by
  obtain ⟨hstarted, hspares⟩ := @isStarted_begun settings now package client hset
  rw [runOn_indexPackage] at hdone
  cases hread : fileOutcomes settings package.name.identifier checkout with
  | error e =>
      rw [hread] at hdone
      obtain ⟨rfl, rfl⟩ := Prod.mk.inj hdone
      rcases (fileOutcomes_eq_error_iff hfiles).mp hread with
        ⟨e', rfl, herror⟩ | ⟨e', rfl, ⟨paths, hlisting⟩, hunusable⟩
      · obtain ⟨hastray, hcheckout⟩ := Checkout.astray_of_sourceFiles_eq_error herror
        refine ⟨⟨hstarted.hasStatus, hastray, hcheckout⟩,
          iff_of_true ⟨e', rfl⟩ ⟨e'.file, hastray⟩, fun e => iff_of_false ?_ ?_⟩
        · intro h
          cases h
        · intro h
          exact h.1 _ hastray
      · have hnone := (Checkout.sourceFiles_eq_ok_iff.mp hlisting).1
        refine ⟨⟨hstarted.hasStatus, hunusable⟩, iff_of_false ?_ (not_exists.mpr hnone),
          fun e => ?_⟩
        · rintro ⟨e, h⟩
          cases h
        · have hexposed := Checkout.exposed_eq_error_iff.mpr hunusable
          rw [← Checkout.exposed_eq_error_iff, hexposed]
          simp [hnone]
  | ok outcomes =>
      have hnone : ∀ file, ¬ Checkout.Astray settings checkout file := by
        intro file hastray
        obtain ⟨e, he⟩ := Checkout.exists_sourceFiles_eq_error_iff.mpr ⟨file, hastray⟩
        cases hread.symm.trans ((fileOutcomes_eq_error_iff hfiles).mpr (Or.inl ⟨e, rfl, he⟩))
      have husable : ∀ e, ¬ Checkout.Unusable checkout e := by
        intro e hunusable
        have hlisting := Checkout.exists_sourceFiles_eq_ok_iff.mpr hnone
        cases hread.symm.trans ((fileOutcomes_eq_error_iff hfiles).mpr
          (Or.inr ⟨e, rfl, hlisting, hunusable⟩))
      have hreplaced := @IsStarted.replaced settings now package _
        (outcomes.flatMap (·.functions)) package.name.identifier hstarted
      have hfate := (spares_update_replaceFunctions settings package.name.identifier
        (outcomes.flatMap (·.functions)) (begun settings now package client)).fate_eq 0
      rw [hspares.fate_eq, hupdate] at hfate
      rw [hread] at hdone
      dsimp only at hdone
      generalize perform (replaceFunctions settings package.name.identifier
        (outcomes.flatMap (·.functions))) (begun settings now package client) = replaced
        at hreplaced hfate hdone
      -- Neither the listing nor the manifest is to blame for what comes now.
      have hapart : ∀ {result : Except Error Report},
          (∀ e, result ≠ .error (.listing e)) → (∀ e, result ≠ .error (.manifest e)) →
          ((∃ e, result = .error (.listing e)) ↔ ∃ file, Checkout.Astray settings checkout file) ∧
          ∀ e, result = .error (.manifest e) ↔
            (∀ file, ¬ Checkout.Astray settings checkout file) ∧ Checkout.Unusable checkout e := by
        intro result hlisting hmanifest
        refine ⟨iff_of_false (not_exists.mpr hlisting) (not_exists.mpr hnone), fun e => ?_⟩
        exact iff_of_false (hmanifest e) fun h => husable e h.2
      obtain ⟨e | records, mid⟩ := replaced <;> obtain ⟨rfl, rfl⟩ := Prod.mk.inj hdone
      · refine ⟨hreplaced.updated hfate ?_, hapart (by simp) (by simp)⟩
        simp [Json.field?, Json.setField, Package.Record.toFields, started, failure]
      · refine ⟨hreplaced.updated hfate ?_, hapart (by simp) (by simp)⟩
        simp [Json.field?, Json.setField, Package.Record.toFields, started, completion]

/-- A package with one function, and this manifest. -/
def withManifest (manifest : String) : Checkout where
  files :=
    ⟨[(["x", "y", "elm.json"], .file (.text manifest)),
      (["x", "y", "src", "A.elm"], .file (.text "module A exposing (f)\nf : Int\nf = 0\n"))]⟩
  path := ⟨.slash, ["x", "y"]⟩

/-- The function cannot be stored, and the record says that the package failed. -/
theorem indexPackage_ends_sample :
    let package : Package := { name := { author := "x", project := "y" } }
    let outcome := (indexPackage {} "now" package
      (withManifest "\x7b\"exposed-modules\": [\"A\"]\x7d")).runOn
        ⟨.empty, [⟨.commitBatch, 0, 1, .runtime, "busy"⟩], []⟩
    outcome.1 = .error (.store (.refused .runtime "busy")) ∧
      HasStatus {} outcome.2.store package.name.identifier .failed := by
  intro package outcome
  have hset : fate .set [⟨.commitBatch, 0, 1, .runtime, "busy"⟩] 0 = none := rfl
  have hupdate : fate .update [⟨.commitBatch, 0, 1, .runtime, "busy"⟩] 0 = none := rfl
  have hfiles : (withManifest "\x7b\"exposed-modules\": [\"A\"]\x7d").files.IsProper := by decide
  have hresult : outcome.1 = .error (.store (.refused .runtime "busy")) := by decide +kernel
  have hdone : (indexPackage {} "now" package
      (withManifest "\x7b\"exposed-modules\": [\"A\"]\x7d")).runOn
        ⟨.empty, [⟨.commitBatch, 0, 1, .runtime, "busy"⟩], []⟩ =
      (.error (.store (.refused .runtime "busy")), outcome.2) :=
    Prod.ext hresult rfl
  exact ⟨hresult, (indexPackage_ends hset hupdate hfiles hdone).1⟩

/-- A list in the place of the name of an exposed module: indexing the package fails, and its record
goes on to say that it is processed. -/
theorem indexPackage_stays_processing :
    let package : Package := { name := { author := "x", project := "y" } }
    let outcome := (indexPackage {} "now" package
      (withManifest "\x7b\"exposed-modules\": [[\"A\"]]\x7d")).runOn ⟨.empty, [], []⟩
    outcome.1 = .error (.manifest (.notAName "list")) ∧
      HasStatus {} outcome.2.store package.name.identifier .processing ∧
      ¬ HasStatus {} outcome.2.store package.name.identifier .failed := by
  intro package outcome
  have hstored : outcome.2.store.get? (packageKey {} package.name.identifier) =
      some (started {} "now" package).toFields := by
    decide +kernel
  have hstatus : HasStatus {} outcome.2.store package.name.identifier .processing :=
    ⟨_, hstored, by decide +kernel⟩
  exact ⟨by decide +kernel, hstatus, fun hfailed => nomatch hstatus.unique hfailed⟩

/-- An absolute source folder outside the checkout does the same, if there is a source file in
it. -/
example :
    (indexPackage { sourceFolders := ["src", "/x/z"] } "now"
      { name := { author := "x", project := "y" } }
      ⟨⟨[(["x", "y", "src", "A.elm"], .unreadable), (["x", "z", "B.elm"], .unreadable)]⟩,
        ⟨.slash, ["x", "y"]⟩, []⟩).runOn ⟨.empty, [], []⟩ =
    (.error (.listing ⟨⟨.slash, ["x", "z", "B.elm"]⟩, ⟨.slash, ["x", "y"]⟩⟩),
      begun {} "now" { name := { author := "x", project := "y" } } ⟨.empty, [], []⟩) := by
  rfl

end Indexing
end SignatureSearch
