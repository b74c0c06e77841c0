/-
# `Proofs.Indexing.Succession` — one package after another

What indexing a package leaves to those that come after it.  If the counter of
the store is sound, then other packages are left alone whatever becomes of this
one (`indexPackage_follows`), and a package that is indexed has as many
documents as functions, with numbers that are not handed out again
(`indexPackage_indexed`).
-/
import SignatureSearch.Proofs.Database.Succession
import SignatureSearch.Proofs.Indexing.Status

namespace SignatureSearch

/-! ## How many documents there are -/

namespace Database

theorem Holds.length_idsOf {settings : Settings} {store : Store} {packageId : String}
    {drafts : List FunctionDraft} {n : Nat}
    (h : Holds settings store packageId (numbered n drafts)) :
    (idsOf settings store packageId).length = drafts.length := by
  have hnodup : (idsOf settings store packageId).Nodup :=
    (Store.nodup_documents store (functions settings)).sublist (List.filter_sublist.map _)
  have hkeys : ((numbered n drafts).map fun r => toString (r.id : Int)).Nodup := by
    refine (nodup_numbered n drafts).of_map _ |>.map_on fun r hr r' hr' heq => ?_
    have hid : r.id = r'.id :=
      functionKey_inj.mp (congrArg (DocumentKey.mk (functions settings)) heq)
    exact List.inj_on_of_nodup_map (nodup_numbered n drafts) hr hr' hid
  have hperm : (idsOf settings store packageId).Perm
      ((numbered n drafts).map fun r => toString (r.id : Int)) := by
    refine (List.perm_ext_iff_of_nodup hnodup hkeys).mpr fun id => ?_
    rw [mem_idsOf, List.mem_map]
    constructor
    · rintro ⟨fields, hfields, hpackage⟩
      obtain ⟨r, hr, hkey, -⟩ := (h ⟨functions settings, id⟩ fields).mp ⟨hfields, rfl, hpackage⟩
      exact ⟨r, hr, (congrArg DocumentKey.id hkey).symm⟩
    · rintro ⟨r, hr, rfl⟩
      obtain ⟨hfields, hof⟩ := (h (functionKey settings r.id) r.toFields).mpr ⟨r, hr, rfl, rfl⟩
      exact ⟨r.toFields, hfields, hof.2⟩
  rw [hperm.length_eq, List.length_map, length_numbered]

end Database

/-! ## One package -/

namespace Indexing

open Database
open Store (Client Succeeds perform)

variable {settings : Settings} {now : String} {package : Package} {checkout : Checkout}
  {client after : Client}

/-- A store from which a package can be indexed: the counter is good for it. -/
def Indexable (settings : Settings) (store : Store) (job : Package × Checkout) : Prop :=
  ∃ drafts, collected settings job.1 job.2 = .ok drafts ∧
    (drafts = [] ∨ (nextId? (store.get? (counterKey settings))).isSome)

theorem indexable_iff {ids : List String} {store store' : Store} {job : Package × Checkout}
    (h : Follows settings ids store store') :
    Indexable settings store' job ↔ Indexable settings store job := by
  rw [Indexable, Indexable, h.isSome_eq]

theorem follows_begun (hsound : IsSound (client.store.get? (counterKey settings))) :
    Follows settings [] client.store (begun settings now package client).store :=
  .of_within hsound (within_upsertPackage settings _ client)

theorem collected_eq_ok {outcomes : List FileOutcome}
    (h : fileOutcomes settings package.name.identifier checkout = .ok outcomes) :
    collected settings package checkout = .ok (outcomes.flatMap (·.functions)) := by
  rw [collected, h]
  rfl

/-- Whatever indexing a package comes to, other packages are left alone. -/
theorem indexPackage_follows (hsound : IsSound (client.store.get? (counterKey settings))) :
    Follows settings [package.name.identifier] client.store
      ((indexPackage settings now package checkout).runOn client).2.store := by
  have hbegun := @follows_begun settings now package client hsound
  rw [runOn_indexPackage]
  cases hread : fileOutcomes settings package.name.identifier checkout with
  | error e => exact hbegun.mono (List.nil_subset _)
  | ok outcomes =>
      have howned := packageId_of_mem_collected (collected_eq_ok hread)
      have hreplaced := (@replaceFunctions_course settings package.name.identifier _ _
        hbegun.sound).follows hbegun.sound howned
      have hmid := hbegun.trans hreplaced
      dsimp only
      generalize perform (replaceFunctions settings package.name.identifier
        (outcomes.flatMap (·.functions))) (begun settings now package client) = replaced at hmid
      obtain ⟨e | records, mid⟩ := replaced
      · exact hmid.trans (.of_within hmid.sound (within_updatePackage settings now _ _ mid))
      · exact hmid.trans (.of_within hmid.sound (within_updatePackage settings now _ _ mid))

/-- What a run comes to that returns: the files were read, their functions were stored, and the
record of the package was brought up to date. -/
theorem indexPackage_returns {report : Report}
    (h : (indexPackage settings now package checkout).runOn client = (.ok report, after)) :
    ∃ outcomes records mid,
      fileOutcomes settings package.name.identifier checkout = .ok outcomes ∧
      perform (replaceFunctions settings package.name.identifier (outcomes.flatMap (·.functions)))
        (begun settings now package client) = (.ok records, mid) ∧
      report = .of package.name outcomes records.length ∧
      after = (perform (updatePackage settings now package.name.identifier (completion report))
        mid).2 := by
  rw [runOn_indexPackage] at h
  cases hread : fileOutcomes settings package.name.identifier checkout with
  | error e =>
      rw [hread] at h
      cases h
  | ok outcomes =>
      rw [hread] at h
      dsimp only at h
      cases hreplace : perform (replaceFunctions settings package.name.identifier
          (outcomes.flatMap (·.functions))) (begun settings now package client) with
      | mk result mid =>
          rw [hreplace] at h
          cases result with
          | error e => cases h
          | ok records =>
              obtain ⟨hreport, rfl⟩ := Prod.mk.inj h
              obtain rfl := Except.ok.inj hreport
              exact ⟨outcomes, records, mid, rfl, hreplace, rfl, rfl⟩

/-- A package that is indexed has its functions in the store, with numbers in a row, and what is
handed out later is above them. -/
theorem indexPackage_indexed {report : Report}
    (hsound : IsSound (client.store.get? (counterKey settings)))
    (hdone : (indexPackage settings now package checkout).runOn client = (.ok report, after)) :
    Indexable settings client.store (package, checkout) ∧ ∃ drafts n,
      collected settings package checkout = .ok drafts ∧ report.functions = drafts.length ∧
      Holds settings after.store package.name.identifier (numbered n drafts) ∧
      Beyond settings after.store (n + drafts.length) := by
  obtain ⟨outcomes, records, mid, hread, hreplace, hreport, rfl⟩ := indexPackage_returns hdone
  have hbegun := @follows_begun settings now package client hsound
  have hcollected := collected_eq_ok hread
  obtain ⟨n, hrecords, hholds, hbeyond, hopen⟩ := replaceFunctions_holds hbegun.sound
    (packageId_of_mem_collected hcollected) hreplace
  rw [hbegun.isSome_eq] at hopen
  -- The record of the package is all that is written after that.
  have hwithin := within_updatePackage settings now package.name.identifier (completion report) mid
  refine ⟨⟨_, hcollected, hopen⟩, _, n, hcollected, ?_, ?_, ?_⟩
  · rw [hreport]
    exact (congrArg List.length hrecords).trans (length_numbered n _)
  · exact (agree_of_within hwithin _).holds_iff.mp (hrecords ▸ hholds)
  · exact hbeyond.congr (hwithin _ (packages_ne_counters settings).symm)

theorem indexPackage_succeeds (hsound : IsSound (client.store.get? (counterKey settings)))
    (hfaults : client.faults = []) (h : Indexable settings client.store (package, checkout)) :
    ∃ report after, (indexPackage settings now package checkout).runOn client = (.ok report, after) ∧
      after.faults = [] := by
  obtain ⟨drafts, hcollected, hopen⟩ := h
  obtain ⟨outcomes, hread, rfl⟩ : ∃ outcomes,
      fileOutcomes settings package.name.identifier checkout = .ok outcomes ∧
        outcomes.flatMap (·.functions) = drafts := by
    cases hread : fileOutcomes settings package.name.identifier checkout with
    | error e =>
        rw [collected, hread] at hcollected
        cases hcollected
    | ok outcomes =>
        exact ⟨outcomes, rfl, Except.ok.inj ((collected_eq_ok hread).symm.trans hcollected)⟩
  have hbegun := @follows_begun settings now package client hsound
  have hquiet : (begun settings now package client).faults = [] := by
    obtain ⟨stored, mid, hstored, hmid⟩ :=
      @succeeds_upsertPackage settings client (started settings now package) hfaults
    rwa [begun, hstored]
  rw [← hbegun.isSome_eq] at hopen
  obtain ⟨records, mid, hreplace, hmid⟩ :=
    succeeds_replaceFunctions package.name.identifier hquiet hopen
  obtain ⟨noted, last, hupdate, hlast⟩ := @succeeds_updatePackage settings mid now
    package.name.identifier (completion (.of package.name outcomes records.length)) hmid
  refine ⟨_, _, by rw [runOn_indexPackage, hread]; dsimp only; rw [hreplace], ?_⟩
  rwa [hupdate]

end Indexing

end SignatureSearch
