/-
# `Proofs.Database.Joining` — functions come in the order they are asked for

Functions are asked for by their identifiers, all at once, and the store answers
in an order of its own.  From the answer they are picked out again, one
identifier after the other, and each is joined with its package:

    functionOf     the function of an identifier, if there is one
    packageOf      what is known about a package, if that can be read
    AsksOnce       a package is asked for when its first function comes, and
                   not again

So neither the order of the answer nor what it says twice can be seen in what is
found (`getFunctions_joins`).

What is found says what the two documents say, field by field (`Shows`).  Of a
package whose document is missing or cannot be read only the identifier is
known; it is the name then, and the address is empty.
-/
import SignatureSearch.Proofs.Database.Numbering
import SignatureSearch.Proofs.Store.Calls
import SignatureSearch.Proofs.Validation.Fields

namespace SignatureSearch.Database

open Store (Call Failure Client Later perform perform_bind_eq_ok fate)
open Validation (map_eq_valid_iff optional_text_eq_valid_iff required_text_eq_valid_iff)
open Validation.Checked (seq_eq_valid)

variable {settings : Settings} {store : Store} {client after start : Client}

/-! ## Functions by their identifiers -/

/-- The function of an identifier, if there is a document of it that can be read. -/
def functionOf (settings : Settings) (store : Store) (id : Int) : Option FunctionRecord :=
  (store.get? (functionKey settings id)).bind fun fields =>
    (FunctionRecord.ofFields fields).value?

/-- The document of a function says this about it. -/
structure Tells (fields : Fields) (r : FunctionRecord) : Prop where
  packageId : Json.field? fields "packageId" = some (.str r.packageId)
  name : Json.field? fields "name" = some (.str r.name)
  signature : Json.field? fields "typeSignature" = some (.str r.signature)
  moduleName : (Json.field? fields "moduleName").getD .null = .ofOption r.moduleName

theorem tells_of_ofFields {fields : Fields} {r : FunctionRecord}
    (h : FunctionRecord.ofFields fields = .valid r) : Tells fields r := by
  obtain ⟨_, moduleName, h₁, hmodule, rfl⟩ := seq_eq_valid.mp h
  obtain ⟨_, signature, h₂, hsignature, rfl⟩ := seq_eq_valid.mp h₁
  obtain ⟨_, name, h₃, hname, rfl⟩ := seq_eq_valid.mp h₂
  obtain ⟨_, packageId, h₄, hpackage, rfl⟩ := seq_eq_valid.mp h₃
  obtain ⟨id, -, rfl⟩ := map_eq_valid_iff.mp h₄
  exact
    { packageId := required_text_eq_valid_iff.mp hpackage
      name := required_text_eq_valid_iff.mp hname
      signature := required_text_eq_valid_iff.mp hsignature
      moduleName := optional_text_eq_valid_iff.mp hmodule }

/-- Every document of a function can be read, and its key is the text of its identifier. -/
def Readable (settings : Settings) (store : Store) : Prop :=
  ∀ key fields, key.collection = functions settings → store.get? key = some fields →
    ∃ r : FunctionRecord, FunctionRecord.ofFields fields = .valid r ∧
      key = functionKey settings r.id

theorem Readable.exists_functionOf (h : Readable settings store) {id : Int} {fields : Fields}
    (hfields : store.get? (functionKey settings id) = some fields) :
    ∃ r : FunctionRecord, FunctionRecord.ofFields fields = .valid r ∧
      functionOf settings store id = some r ∧ (r.id : Int) = id := by
  obtain ⟨r, hread, hkey⟩ := h _ fields rfl hfields
  refine ⟨r, hread, ?_, (functionKey_injective settings hkey).symm⟩
  rw [functionOf, hfields, Option.bind_some, hread]
  rfl

theorem Readable.id_eq (h : Readable settings store) {id : Int} {r : FunctionRecord}
    (hr : functionOf settings store id = some r) : (r.id : Int) = id := by
  obtain ⟨fields, hfields, -⟩ := Option.bind_eq_some_iff.mp hr
  obtain ⟨r', -, hr', hid⟩ := h.exists_functionOf hfields
  rwa [Option.some.inj (hr.symm.trans hr')]

theorem Readable.exists_tells (h : Readable settings store) {id : Int} {r : FunctionRecord}
    (hr : functionOf settings store id = some r) :
    ∃ fields, store.get? (functionKey settings r.id) = some fields ∧ Tells fields r := by
  obtain ⟨fields, hfields, -⟩ := Option.bind_eq_some_iff.mp hr
  obtain ⟨r', hread, hr', hid⟩ := h.exists_functionOf hfields
  obtain rfl := Option.some.inj (hr.symm.trans hr')
  exact ⟨fields, by rw [hid, hfields], tells_of_ofFields hread⟩

theorem Readable.isSome_functionOf (h : Readable settings store) (id : Int) :
    (functionOf settings store id).isSome = (store.get? (functionKey settings id)).isSome := by
  cases hfields : store.get? (functionKey settings id) with
  | none =>
      rw [functionOf, hfields, Option.bind_none]
      rfl
  | some fields =>
      obtain ⟨r, -, hr, -⟩ := h.exists_functionOf hfields
      rw [hr, Option.isSome_some, Option.isSome_some]

/-- The identifiers that are found are those with a document, as often as they are asked for. -/
theorem Readable.map_id_filterMap (h : Readable settings store) (ids : List Int) :
    (ids.filterMap (functionOf settings store)).map (fun r => (r.id : Int)) =
      ids.filter fun id => (store.get? (functionKey settings id)).isSome := by
  rw [List.map_filterMap, ← List.filterMap_eq_filter]
  refine List.filterMap_congr fun id _ => ?_
  rw [Option.guard, ← h.isSome_functionOf id]
  cases hr : functionOf settings store id with
  | none => rfl
  | some r =>
      rw [Option.map_some, h.id_eq hr]
      rfl

/-! ## The answer of the store -/

/-- The texts of an answer are those of identifiers that were asked for. -/
theorem exists_asked {ids : List Int} {texts : List String}
    (h : ∀ text, text ∈ texts ↔ text ∈ ids.map toString) :
    ∃ asked : List Int, texts = asked.map toString ∧ ∀ id, id ∈ asked ↔ id ∈ ids := by
  have hrange : texts ∈ Set.range (List.map (toString : Int → String)) := by
    rw [Set.range_list_map]
    intro text htext
    obtain ⟨id, -, heq⟩ := List.mem_map.mp ((h text).mp htext)
    exact ⟨id, heq⟩
  obtain ⟨asked, rfl⟩ := hrange
  refine ⟨asked, rfl, fun id => ?_⟩
  rw [← List.mem_map_of_injective toString_injective, h,
    List.mem_map_of_injective toString_injective]

theorem Readable.mapM_answer (h : Readable settings store) (asked : List Int) :
    ((asked.map toString).filterMap fun id => store.get? ⟨functions settings, id⟩).mapM
        (fun fields => (FunctionRecord.ofFields fields).toExcept.mapError
          (Failure.invalid FunctionRecord.title)) =
      .ok (asked.filterMap (functionOf settings store)) := by
  induction asked with
  | nil => rfl
  | cons id rest ih =>
      rw [List.map_cons, List.filterMap_cons, List.filterMap_cons]
      cases hfields : store.get? (functionKey settings id) with
      | none =>
          have hnone : functionOf settings store id = none := by
            rw [functionOf, hfields, Option.bind_none]
          rw [show store.get? ⟨functions settings, toString id⟩ = none from hfields, hnone]
          exact ih
      | some fields =>
          obtain ⟨r, hread, hr, -⟩ := h.exists_functionOf hfields
          rw [show store.get? ⟨functions settings, toString id⟩ = some fields from hfields, hr]
          dsimp only
          rw [List.mapM_cons, ih, hread]
          rfl

theorem Readable.find?_answer (h : Readable settings store) {asked : List Int} {id : Int}
    (hid : id ∈ asked) :
    (asked.filterMap (functionOf settings store)).reverse.find? (fun r => (r.id : Int) = id) =
      functionOf settings store id := by
  have hfound : ∀ r ∈ (asked.filterMap (functionOf settings store)).reverse, (r.id : Int) = id →
      functionOf settings store id = some r := by
    intro r hr hrid
    obtain ⟨id', -, hr'⟩ := List.mem_filterMap.mp (List.mem_reverse.mp hr)
    rwa [← hrid, h.id_eq hr']
  cases hpicked : (asked.filterMap (functionOf settings store)).reverse.find?
      (fun r => (r.id : Int) = id) with
  | some r =>
      have hrid : (r.id : Int) = id := by simpa using List.find?_some hpicked
      exact (hfound r (List.mem_of_find?_eq_some hpicked) hrid).symm
  | none =>
      cases hr : functionOf settings store id with
      | none => rfl
      | some r =>
          have hin : r ∈ (asked.filterMap (functionOf settings store)).reverse :=
            List.mem_reverse.mpr (List.mem_filterMap.mpr ⟨id, hid, hr⟩)
          have hno := List.find?_eq_none.mp hpicked r hin
          exact absurd (decide_eq_true (h.id_eq hr)) hno

/-! ## Packages -/

/-- What is known about a package, if there is a document of it that can be read. -/
def packageOf (settings : Settings) (store : Store) (id : String) : Option Package.Record :=
  (store.get? (packageKey settings id)).bind fun fields =>
    (Package.Record.ofJson (.obj fields)).value?

/-- What is found out about a package: what is known about it, or nothing if the store refuses to
read documents. -/
def Learns (settings : Settings) (client : Client) (id : String)
    (package : Option Package.Record) : Prop :=
  package = packageOf settings client.store id ∨
    package = none ∧ ∃ n failure, fate .get client.faults n = some failure

/-- A function is joined with what is found out about its package. -/
def Joins (settings : Settings) (client : Client) (r : FunctionRecord) (f : FoundFunction) :
    Prop :=
  ∃ package, Learns settings client r.packageId package ∧ f = withPackage r package

/-- The document of a package can be read, and says this name and this address. -/
def Describes (settings : Settings) (store : Store) (id name url : String) : Prop :=
  ∃ fields package, store.get? (packageKey settings id) = some fields ∧
    Package.Record.ofJson (.obj fields) = .valid package ∧
    Json.field? fields "name" = some (.str name) ∧ Json.field? fields "url" = some (.str url)

/-- There is no document of a package that can be read, or the store refuses to read documents. -/
def IsUnknown (settings : Settings) (client : Client) (id : String) : Prop :=
  packageOf settings client.store id = none ∨ ∃ n failure, fate .get client.faults n = some failure

/-- What is found of a function: what its document says, with the name and the address that the
document of its package says.  Of a package of which nothing is known, the identifier stands for
the name, and the address is empty. -/
structure Shows (settings : Settings) (client : Client) (r : FunctionRecord) (f : FoundFunction) :
    Prop where
  functionId : f.functionId = r.id
  packageId : f.packageId = r.packageId
  name : f.name = r.name
  signature : f.signature = r.signature
  moduleName : f.moduleName = r.moduleName
  package : Describes settings client.store r.packageId f.packageName f.packageUrl ∨
    IsUnknown settings client r.packageId ∧ f.packageName = r.packageId ∧ f.packageUrl = ""

theorem fields_of_ofJson {fields : Fields} {package : Package.Record}
    (h : Package.Record.ofJson (.obj fields) = .valid package) :
    Json.field? fields "name" = some (.str package.name) ∧
      Json.field? fields "url" = some (.str package.url) := by
  -- These are the second and the third of eight fields.
  obtain ⟨_, _, h₁, -, rfl⟩ := seq_eq_valid.mp h
  obtain ⟨_, _, h₂, -, rfl⟩ := seq_eq_valid.mp h₁
  obtain ⟨_, _, h₃, -, rfl⟩ := seq_eq_valid.mp h₂
  obtain ⟨_, _, h₄, -, rfl⟩ := seq_eq_valid.mp h₃
  obtain ⟨_, _, h₅, -, rfl⟩ := seq_eq_valid.mp h₄
  obtain ⟨_, url, h₆, hurl, rfl⟩ := seq_eq_valid.mp h₅
  obtain ⟨_, name, h₇, hname, rfl⟩ := seq_eq_valid.mp h₆
  obtain ⟨packageId, -, rfl⟩ := map_eq_valid_iff.mp h₇
  exact ⟨required_text_eq_valid_iff.mp hname, required_text_eq_valid_iff.mp hurl⟩

theorem describes_of_packageOf {id : String} {package : Package.Record}
    (h : packageOf settings store id = some package) :
    Describes settings store id package.name package.url := by
  obtain ⟨fields, hfields, hvalue⟩ := Option.bind_eq_some_iff.mp h
  cases hread : Package.Record.ofJson (.obj fields) with
  | invalid issues =>
      rw [hread] at hvalue
      cases hvalue
  | valid package' =>
      rw [hread] at hvalue
      obtain rfl := Option.some.inj hvalue
      obtain ⟨hname, hurl⟩ := fields_of_ofJson hread
      exact ⟨fields, _, hfields, hread, hname, hurl⟩

theorem Joins.shows {r : FunctionRecord} {f : FoundFunction} (h : Joins settings client r f) :
    Shows settings client r f := by
  obtain ⟨package, hlearns, rfl⟩ := h
  refine ⟨rfl, rfl, rfl, rfl, rfl, ?_⟩
  cases package with
  | some package =>
      rcases hlearns with hknown | ⟨hnone, -⟩
      · exact Or.inl (describes_of_packageOf hknown.symm)
      · cases hnone
  | none =>
      refine Or.inr ⟨?_, rfl, rfl⟩
      rcases hlearns with hknown | ⟨-, hrefused⟩
      · exact Or.inl hknown.symm
      · exact Or.inr hrefused

theorem Learns.of_later {before after : Client} (hlater : Later before after) {id : String}
    {package : Option Package.Record} (h : Learns settings after id package) :
    Learns settings before id package := by
  rcases h with hknown | ⟨hnone, n, failure, hfate⟩
  · rw [hlater.store_eq] at hknown
    exact Or.inl hknown
  · obtain ⟨m, hm⟩ := hlater.fate_eq .get n
    exact Or.inr ⟨hnone, m, failure, hm.symm.trans hfate⟩

/-- Where no reading is refused, functions are shown with what is known about their packages. -/
theorem eq_map_of_joins (hfate : ∀ n, fate .get client.faults n = none)
    {wanted : List FunctionRecord} {found : List FoundFunction}
    (h : List.Forall₂ (Joins settings client) wanted found) :
    found = wanted.map fun r => withPackage r (packageOf settings client.store r.packageId) := by
  induction h with
  | nil => rfl
  | cons hjoins _ ih =>
      obtain ⟨package, hlearns, rfl⟩ := hjoins
      rcases hlearns with rfl | ⟨-, n, failure, hrefused⟩
      · rw [List.map_cons, ih]
      · cases (hfate n).symm.trans hrefused

theorem perform_getPackage (settings : Settings) (id : String) (client : Client) :
    ∃ package, perform (getPackage settings id) client =
      (.ok package, client.note (.get (packageKey settings id))) ∧
        Learns settings client id package := by
  rw [getPackage, Store.orElse, Store.perform_tryCatch, Store.perform_bind,
    Store.perform_readDocument]
  cases hfate : fate .get client.faults 0 with
  | some failure => exact ⟨none, rfl, Or.inr ⟨rfl, 0, failure, hfate⟩⟩
  | none => exact ⟨_, rfl, Or.inl rfl⟩

/-- With one more package that was found out, all known ones still were. -/
theorem learns_cons {known : KnownPackages} {id : String} {package : Option Package.Record}
    (hknown : ∀ id package, known.lookup id = some package → Learns settings client id package)
    (hlearns : Learns settings client id package) :
    ∀ id' package', ((id, package) :: known).lookup id' = some package' →
      Learns settings client id' package' := by
  intro id' package' h
  rw [List.lookup_cons] at h
  split at h
  · next heq =>
      obtain rfl := Option.some.inj h
      rw [beq_iff_eq.mp heq]
      exact hlearns
  · exact hknown id' package' h

/-! ## Every package is asked for once -/

/-- Between two clients, the packages of some functions were asked for, each of them once; those
that were known were not. -/
def AsksOnce (settings : Settings) (known : KnownPackages) (wanted : List FunctionRecord)
    (before after : List Call) : Prop :=
  ∃ asked : List String, asked.Nodup ∧
    (∀ p, p ∈ asked ↔ known.lookup p = none ∧ p ∈ wanted.map (·.packageId)) ∧
    after = (asked.map fun p => .get (packageKey settings p)).reverse ++ before

namespace AsksOnce

variable {known : KnownPackages} {wanted : List FunctionRecord} {before after : List Call}

theorem nil (calls : List Call) : AsksOnce settings known [] calls calls :=
  ⟨[], List.nodup_nil, by simp, rfl⟩

theorem of_known {r : FunctionRecord} {package : Option Package.Record}
    (hlookup : known.lookup r.packageId = some package)
    (h : AsksOnce settings known wanted before after) :
    AsksOnce settings known (r :: wanted) before after := by
  obtain ⟨asked, hnodup, hmem, hafter⟩ := h
  refine ⟨asked, hnodup, fun p => ?_, hafter⟩
  rw [hmem, List.map_cons, List.mem_cons]
  refine and_congr_right fun hnone => (or_iff_right ?_).symm
  rintro rfl
  cases hlookup.symm.trans hnone

theorem of_unknown {r : FunctionRecord} {package : Option Package.Record}
    (hlookup : known.lookup r.packageId = none)
    (h : AsksOnce settings ((r.packageId, package) :: known) wanted
      (.get (packageKey settings r.packageId) :: before) after) :
    AsksOnce settings known (r :: wanted) before after := by
  obtain ⟨asked, hnodup, hmem, rfl⟩ := h
  have hlater : ∀ p, p ∈ asked ↔
      p ≠ r.packageId ∧ known.lookup p = none ∧ p ∈ wanted.map (·.packageId) := by
    intro p
    rw [hmem, ← and_assoc]
    refine and_congr_left fun _ => ?_
    by_cases hp : p = r.packageId
    · rw [hp, List.lookup_cons_self]
      simp
    · rw [List.lookup_cons, beq_eq_false_iff_ne.mpr hp, and_iff_right hp]
  refine ⟨r.packageId :: asked, List.nodup_cons.mpr ⟨?_, hnodup⟩, fun p => ?_, ?_⟩
  · exact fun hin => ((hlater _).mp hin).1 rfl
  · rw [List.mem_cons, hlater, List.map_cons, List.mem_cons]
    by_cases hp : p = r.packageId
    · simp [hp, hlookup]
    · simp [hp]
  · simp

theorem count_le (h : AsksOnce settings known wanted before after) (key : DocumentKey) :
    after.count (.get key) ≤ before.count (.get key) + 1 := by
  obtain ⟨asked, hnodup, -, rfl⟩ := h
  have hinjective : Function.Injective fun p => Call.get (packageKey settings p) := by
    intro p q hpq
    injection hpq with hkey
    exact congrArg DocumentKey.id hkey
  have honce := List.nodup_iff_count_le_one.mp (hnodup.map hinjective) (.get key)
  rw [List.count_append, List.count_reverse]
  omega

end AsksOnce

/-! ## Joining -/

theorem joinPackages_congr {records records' : List FunctionRecord} {ids : List Int}
    (h : ∀ id ∈ ids, records.reverse.find? (fun r => (r.id : Int) = id) =
      records'.reverse.find? fun r => (r.id : Int) = id) (known : KnownPackages) :
    joinPackages settings records known ids = joinPackages settings records' known ids := by
  induction ids generalizing known with
  | nil => rfl
  | cons id rest ih =>
      obtain ⟨hid, hrest⟩ := List.forall_mem_cons.mp h
      rw [joinPackages, joinPackages, hid]
      simp only [ih hrest]

theorem perform_joinPackages {records : List FunctionRecord} {lookup : Int → Option FunctionRecord}
    (hlater : Later start client) {ids : List Int} {known : KnownPackages}
    (hfind : ∀ id ∈ ids, records.reverse.find? (fun r => (r.id : Int) = id) = lookup id)
    (hknown : ∀ id package, known.lookup id = some package → Learns settings start id package) :
    ∃ found after,
      perform (joinPackages settings records known ids) client = (.ok found, after) ∧
      Later client after ∧ List.Forall₂ (Joins settings start) (ids.filterMap lookup) found ∧
      AsksOnce settings known (ids.filterMap lookup) client.calls after.calls := by
  induction ids generalizing client known with
  | nil => exact ⟨[], client, rfl, .refl client, .nil, .nil client.calls⟩
  | cons id rest ih =>
      obtain ⟨hid, hrest⟩ := List.forall_mem_cons.mp hfind
      rw [joinPackages, hid]
      cases hr : lookup id with
      | none =>
          rw [List.filterMap_cons_none hr]
          exact ih hlater hrest hknown
      | some r =>
          rw [List.filterMap_cons_some hr]
          dsimp only
          cases hlookup : known.lookup r.packageId with
          | some package =>
              obtain ⟨found, after, hperform, hafter, hjoins, hasks⟩ := ih hlater hrest hknown
              refine ⟨withPackage r package :: found, after, ?_, hafter, .cons ?_ hjoins,
                hasks.of_known hlookup⟩
              · refine perform_bind_eq_ok.mpr ⟨(package, known), client, rfl, ?_⟩
                exact perform_bind_eq_ok.mpr ⟨found, after, hperform, rfl⟩
              · exact ⟨package, hknown _ _ hlookup, rfl⟩
          | none =>
              obtain ⟨package, hget, hlearns⟩ := perform_getPackage settings r.packageId client
              have hnote := Store.later_note client (.get (packageKey settings r.packageId))
              have hlearns' := hlearns.of_later hlater
              obtain ⟨found, after, hperform, hafter, hjoins, hasks⟩ :=
                ih (hlater.trans hnote) hrest (learns_cons hknown hlearns')
              refine ⟨withPackage r package :: found, after, ?_, hnote.trans hafter,
                .cons ?_ hjoins, hasks.of_unknown hlookup⟩
              · refine perform_bind_eq_ok.mpr ⟨package, _, hget, ?_⟩
                refine perform_bind_eq_ok.mpr ⟨(package, (r.packageId, package) :: known), _, rfl, ?_⟩
                exact perform_bind_eq_ok.mpr ⟨found, after, hperform, rfl⟩
              · exact ⟨package, hlearns', rfl⟩

/-- In whatever order the store answers, the functions are joined as they are asked for. -/
theorem perform_getFunctions_eq (h : Readable settings client.store)
    (hfate : fate .getAll client.faults 0 = none) {ids : List Int} (hne : ids ≠ [])
    {arrange : List String → List String}
    (harrange : ∀ text, text ∈ arrange (ids.map toString) ↔ text ∈ ids.map toString) :
    perform (getFunctions settings ids arrange) client =
      perform (joinPackages settings (ids.filterMap (functionOf settings client.store)) [] ids)
        (client.note (.getAll (ids.map toString))) := by
  obtain ⟨asked, hasked, hmem⟩ := exists_asked harrange
  have hread : perform (Store.readAll (functions settings) (ids.map toString) arrange) client =
      (.ok ((asked.map toString).filterMap fun id => client.store.get? ⟨functions settings, id⟩),
        client.note (.getAll (ids.map toString))) := by
    refine (Store.perform_read (.getAll (ids.map toString)) (fun store =>
      (arrange (ids.map toString)).filterMap fun id =>
        store.get? ⟨functions settings, id⟩) client).trans ?_
    rw [Store.Call.operation, hfate, hasked]
  have hsame : ∀ id ∈ ids,
      (asked.filterMap (functionOf settings client.store)).reverse.find?
          (fun r => (r.id : Int) = id) =
        (ids.filterMap (functionOf settings client.store)).reverse.find?
          fun r => (r.id : Int) = id := by
    intro id hid
    rw [h.find?_answer hid, h.find?_answer ((hmem id).mpr hid)]
  rw [getFunctions, if_neg (by simpa using hne), Store.perform_bind, hread]
  dsimp only
  rw [h.mapM_answer asked, Store.perform_bind, Store.perform_liftM]
  dsimp only
  rw [joinPackages_congr hsame]

/-- **Functions come in the order they are asked for.**  One is found for every identifier that has
a document, as often as it is asked for.  It says what its document says, with the name and the
address of its own package.  What is found and what is asked of the store are the same for every order in which the store answers, also if it
answers once for what is asked for twice.  The package of a function that is found is read once,
and no other one. -/
theorem getFunctions_joins (h : Readable settings client.store)
    (hfate : fate .getAll client.faults 0 = none) (ids : List Int) :
    let wanted := ids.filterMap (functionOf settings client.store)
    let asks := if ids = [] then [] else [Call.getAll (ids.map toString)]
    ∃ found after,
      (∀ arrange : List String → List String,
        (∀ text, text ∈ arrange (ids.map toString) ↔ text ∈ ids.map toString) →
        perform (getFunctions settings ids arrange) client = (.ok found, after)) ∧
      wanted.map (fun r => (r.id : Int)) =
        ids.filter (fun id => (client.store.get? (functionKey settings id)).isSome) ∧
      (∀ r ∈ wanted, ∃ fields,
        client.store.get? (functionKey settings r.id) = some fields ∧ Tells fields r) ∧
      List.Forall₂ (Shows settings client) wanted found ∧
      ((∀ n, fate .get client.faults n = none) →
        found = wanted.map fun r =>
          withPackage r (packageOf settings client.store r.packageId)) ∧
      after.store = client.store ∧
      AsksOnce settings [] wanted (asks ++ client.calls) after.calls ∧
      ∀ key, after.calls.count (.get key) ≤ client.calls.count (.get key) + 1 := by
  intro wanted asks
  have hwanted := h.map_id_filterMap ids
  by_cases hids : ids = []
  · subst hids
    refine ⟨[], client, fun _ _ => rfl, hwanted, ?_, .nil, fun _ => rfl, rfl, ?_, ?_⟩
    · exact fun _ hr => absurd hr List.not_mem_nil
    · exact AsksOnce.nil client.calls
    · exact fun key => Nat.le_succ _
  · have hnote := Store.later_note client (.getAll (ids.map toString))
    have hnothing : ∀ id package, ([] : KnownPackages).lookup id = some package →
        Learns settings client id package :=
      fun _ _ hlookup => absurd hlookup (by simp)
    obtain ⟨found, after, hjoin, hafter, hjoins, hasks⟩ :=
      perform_joinPackages hnote (fun _ => h.find?_answer) hnothing
    have hall : asks = [.getAll (ids.map toString)] := if_neg hids
    refine ⟨found, after, ?_, hwanted, ?_, hjoins.imp fun _ _ => Joins.shows, ?_, ?_, ?_, ?_⟩
    · intro arrange harrange
      rw [perform_getFunctions_eq h hfate hids harrange, hjoin]
    · intro r hr
      obtain ⟨id, -, hr⟩ := List.mem_filterMap.mp hr
      exact h.exists_tells hr
    · exact fun hget => eq_map_of_joins hget hjoins
    · exact (hnote.trans hafter).store_eq
    · rw [hall]
      exact hasks
    · intro key
      refine (hasks.count_le key).trans_eq ?_
      show ((Call.getAll (ids.map toString)) :: client.calls).count (.get key) + 1 = _
      rw [List.count_cons_of_ne (by simp)]

/-- Two functions of a package, one of a package without a document, and an identifier without a
function; the first one is asked for twice.  The answer stands in the order of the texts, or from
the end and with one document for each. -/
theorem getFunctions_joins_sample :
    let document (id : Int) (packageId name : String) : Fields := [("id", .int id),
      ("packageId", .str packageId), ("name", .str name), ("typeSignature", .str "Int")]
    let store : Store := {
      entries := [
        (functionKey {} 1, document 1 "elm__core" "f"),
        (functionKey {} 5, document 5 "elm__core" "g"),
        (functionKey {} 7, document 7 "gone__pkg" "h"),
        (packageKey {} "elm__core", [("packageId", .str "elm__core"), ("name", .str "elm/core"),
          ("url", .str "https://github.com/elm/core")])] }
    let client : Client := ⟨store, [], []⟩
    ∃ found after,
      perform (getFunctions {} [5, 3, 7, 1, 5]) client = (.ok found, after) ∧
      perform (getFunctions {} [5, 3, 7, 1, 5] fun texts => texts.reverse.dedup) client =
        (.ok found, after) ∧
      found =
        [⟨"elm__core", "elm/core", "https://github.com/elm/core", 5, "g", "Int", none⟩,
          ⟨"gone__pkg", "gone__pkg", "", 7, "h", "Int", none⟩,
          ⟨"elm__core", "elm/core", "https://github.com/elm/core", 1, "f", "Int", none⟩,
          ⟨"elm__core", "elm/core", "https://github.com/elm/core", 5, "g", "Int", none⟩] ∧
      after.calls.count (.get (packageKey {} "elm__core")) ≤ 1 := by
  intro document store client
  have hreadable : Readable {} client.store := by
    intro key fields hkey hfields
    have hin := Store.get?_eq_some_iff.mp hfields
    simp only [client, store, List.mem_cons, List.not_mem_nil, or_false, Prod.mk.injEq] at hin
    rcases hin with ⟨rfl, rfl⟩ | ⟨rfl, rfl⟩ | ⟨rfl, rfl⟩ | ⟨rfl, rfl⟩
    · exact ⟨⟨1, "elm__core", "f", "Int", none⟩, rfl, rfl⟩
    · exact ⟨⟨5, "elm__core", "g", "Int", none⟩, rfl, rfl⟩
    · exact ⟨⟨7, "gone__pkg", "h", "Int", none⟩, rfl, rfl⟩
    · exact absurd hkey (by decide)
  obtain ⟨found, after, hperform, -, -, -, hfound, -, -, honce⟩ :=
    getFunctions_joins hreadable (Store.fate_nil .getAll 0) [5, 3, 7, 1, 5]
  refine ⟨found, after, hperform _ fun text => ?_, hperform _ fun text => ?_, ?_, honce _⟩
  · exact List.mem_mergeSort
  · rw [List.mem_dedup, List.mem_reverse]
  · rw [hfound (Store.fate_nil .get)]
    rfl

end SignatureSearch.Database
