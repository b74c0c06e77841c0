/-
# `Proofs.Indexing.Folders` — what is below the source folders

Source folders are looked for from the checkout, and what is found below them
is listed by its path from there:

    a relative folder    every file has such a path, also if the folder leads
                         out of the checkout
    an absolute folder   only files have one whose path begins with that of the
                         checkout

One file without such a path, and there is no listing at all
(`exists_sourceFiles_eq_error_iff`).  Else there is one, in the order of the
paths (`sourceFiles_eq_ok_iff`).
-/
import Mathlib.Data.List.Sort
import Mathlib.Data.String.Basic
import SignatureSearch.Checkout
import SignatureSearch.Proofs.FileTree
import SignatureSearch.Proofs.Store.Calls

namespace SignatureSearch.Checkout

variable {settings : Settings} {checkout : Checkout} {extensions : List String} {folder : String}
  {file p : Path} {paths : List String}

/-! ## Where paths lead -/

theorem absolute_join (checkout : Checkout) (h : p.root = .none) :
    checkout.absolute (checkout.path.join p) = checkout.absolute checkout.path ++ p.names := by
  rw [Path.join_of_root_eq_none h]
  unfold absolute
  dsimp only
  split
  · exact (List.append_assoc _ _ _).symm
  · rfl

theorem absolute_of_root_ne_none (checkout : Checkout) (h : p.root ≠ .none) :
    checkout.absolute p = p.names := by
  unfold absolute
  split
  · rename_i hroot
    exact absurd hroot h
  · rfl

theorem exists_home_of_manifest {node : FileTree.Node}
    (h : checkout.node? (.ofText manifestName) = some node) :
    ∃ home, checkout.files.directory? (checkout.absolute checkout.path) = some home := by
  have hname : Path.ofText manifestName = ⟨.none, [manifestName]⟩ := by decide
  rw [hname, node?, absolute_join checkout rfl, FileTree.follow?, List.dropLast_concat] at h
  obtain ⟨_, -, hhere⟩ := Option.bind_eq_some_iff.mp h
  obtain ⟨home, hhome, -⟩ := Option.bind_eq_some_iff.mp hhere
  exact ⟨home, hhome⟩

/-! ## The files below a folder -/

/-- A source file below a folder: its path begins with that of the folder, and goes on as the names
below it do. -/
theorem mem_filesUnder_iff :
    file ∈ checkout.filesUnder extensions folder ↔ hasExtension extensions file = true ∧
      ∃ here rest,
        checkout.files.directory? (checkout.absolute (checkout.path.join (.ofText folder))) =
          some here ∧ rest ∈ checkout.files.filesBelow here ∧
        (checkout.path.join (.ofText folder)).join ⟨.none, rest⟩ = file := by
  unfold filesUnder
  dsimp only
  cases checkout.files.directory? (checkout.absolute (checkout.path.join (.ofText folder))) with
  | none => simp
  | some here =>
      rw [List.mem_filter, List.mem_map, and_comm]
      refine and_congr_right fun _ => ?_
      constructor
      · rintro ⟨rest, hrest, rfl⟩
        exact ⟨here, rest, rfl, hrest, rfl⟩
      · rintro ⟨_, rest, hhere, hrest, rfl⟩
        obtain rfl := Option.some.inj hhere
        exact ⟨rest, hrest, rfl⟩

theorem relativeTo?_of_relative (checkout : Checkout) (hfolder : (Path.ofText folder).root = .none)
    (rest : List String) :
    ((checkout.path.join (.ofText folder)).join ⟨.none, rest⟩).relativeTo? checkout.path =
      some ⟨.none, (Path.ofText folder).names ++ rest⟩ := by
  have hjoin : (checkout.path.join (.ofText folder)).join ⟨.none, rest⟩ =
      checkout.path.join ⟨.none, (Path.ofText folder).names ++ rest⟩ := by
    rw [Path.join_of_root_eq_none rfl, Path.join_of_root_eq_none hfolder,
      Path.join_of_root_eq_none rfl, List.append_assoc]
  rw [hjoin]
  exact Path.relativeTo?_join rfl

/-! ## The listing -/

/-- A source file that cannot be listed: it is found below an absolute folder, and its path does not
begin with that of the checkout. -/
def Astray (settings : Settings) (checkout : Checkout) (file : Path) : Prop :=
  ∃ folder ∈ settings.sourceFolders, (Path.ofText folder).root ≠ .none ∧
    file ∈ checkout.filesUnder settings.sourceExtensions folder ∧
    ¬ (file.root = checkout.path.root ∧ checkout.path.names <+: file.names)

/-- The paths of the source files from the checkout, one folder after the other. -/
def listing (settings : Settings) (checkout : Checkout) : List String :=
  ((found settings checkout).filterMap (·.relativeTo? checkout.path)).map Path.text

theorem relative_eq_ok_iff :
    checkout.relative file = .ok p ↔ file.relativeTo? checkout.path = some p := by
  unfold relative
  cases file.relativeTo? checkout.path <;> simp

theorem relative_eq_error_iff {e : NotBelow} :
    checkout.relative file = .error e ↔
      file.relativeTo? checkout.path = none ∧ e = ⟨file, checkout.path⟩ := by
  unfold relative
  cases file.relativeTo? checkout.path <;> simp [eq_comm]

theorem eq_filterMap_of_mapM_relative {found : List Path} {ps : List Path}
    (h : found.mapM checkout.relative = .ok ps) :
    ps = found.filterMap (·.relativeTo? checkout.path) := by
  have hall := Store.forall₂_of_mapM_eq_ok h
  clear h
  induction hall with
  | nil => rfl
  | cons hfirst _ ih =>
      rw [List.filterMap_cons, relative_eq_ok_iff.mp hfirst, ih]

theorem astray_iff : Astray settings checkout file ↔
    file ∈ found settings checkout ∧ file.relativeTo? checkout.path = none := by
  rw [Path.relativeTo?_eq_none_iff, found, List.mem_flatMap]
  constructor
  · rintro ⟨folder, hfolder, -, hfile, hoff⟩
    exact ⟨⟨folder, hfolder, hfile⟩, hoff⟩
  · rintro ⟨⟨folder, hfolder, hfile⟩, hoff⟩
    refine ⟨folder, hfolder, fun hroot => ?_, hfile, hoff⟩
    obtain ⟨-, here, rest, -, -, rfl⟩ := mem_filesUnder_iff.mp hfile
    have hbelow := relativeTo?_of_relative checkout hroot rest
    rw [Path.relativeTo?_eq_none_iff.mpr hoff] at hbelow
    cases hbelow

theorem astray_of_sourceFiles_eq_error {e : NotBelow} (h : sourceFiles settings checkout = .error e) :
    Astray settings checkout e.file ∧ e.checkout = checkout.path := by
  unfold sourceFiles at h
  cases hfound : (found settings checkout).mapM checkout.relative with
  | error e' =>
      rw [hfound] at h
      obtain rfl := Except.error.inj h
      obtain ⟨file, hfile, herror⟩ := Store.exists_of_mapM_eq_error hfound
      obtain ⟨hoff, rfl⟩ := relative_eq_error_iff.mp herror
      exact ⟨astray_iff.mpr ⟨hfile, hoff⟩, rfl⟩
  | ok ps =>
      rw [hfound] at h
      cases h

/-- What a listing is: all source files by their paths, in the order of these. -/
theorem sourceFiles_eq_ok_iff :
    sourceFiles settings checkout = .ok paths ↔ (∀ file, ¬ Astray settings checkout file) ∧
      paths.Pairwise (· ≤ ·) ∧ paths.Perm (listing settings checkout) := by
  have hsorted : ∀ l : List String, (l.mergeSort fun a b => decide (a ≤ b)).Pairwise (· ≤ ·) := by
    intro l
    refine List.Pairwise.imp (fun h => of_decide_eq_true h) (List.pairwise_mergeSort ?_ ?_ _)
    · intro a b c hab hbc
      exact decide_eq_true (String.le_trans (of_decide_eq_true hab) (of_decide_eq_true hbc))
    · intro a b
      rw [Bool.or_eq_true, decide_eq_true_eq, decide_eq_true_eq]
      exact String.le_total a b
  constructor
  · intro h
    obtain ⟨ps, hps, hsort⟩ := Store.bind_eq_ok.mp h
    obtain rfl := Except.ok.inj hsort
    refine ⟨fun file hastray => ?_, hsorted _, ?_⟩
    · obtain ⟨hfile, hoff⟩ := astray_iff.mp hastray
      obtain ⟨p, -, hp⟩ := Store.exists_mem_of_mapM hps hfile
      rw [relative_eq_ok_iff, hoff] at hp
      cases hp
    · rw [listing, ← eq_filterMap_of_mapM_relative hps]
      exact List.mergeSort_perm _ _
  · rintro ⟨hnone, hpaths, hperm⟩
    obtain ⟨ps, hps⟩ : ∃ ps, (found settings checkout).mapM checkout.relative = .ok ps := by
      refine Store.exists_mapM_eq_ok_iff.mpr fun file hfile => ?_
      cases hrelative : file.relativeTo? checkout.path with
      | none => exact absurd (astray_iff.mpr ⟨hfile, hrelative⟩) (hnone file)
      | some p => exact ⟨p, relative_eq_ok_iff.mpr hrelative⟩
    rw [listing, ← eq_filterMap_of_mapM_relative hps] at hperm
    -- There is one order only in which the paths can be listed.
    have hsame := List.Perm.eq_of_pairwise' (hsorted (ps.map Path.text)) hpaths
      ((List.mergeSort_perm _ _).trans hperm.symm)
    exact Store.bind_eq_ok.mpr ⟨ps, hps, congrArg Except.ok hsame⟩

theorem exists_sourceFiles_eq_ok_iff :
    (∃ paths, sourceFiles settings checkout = .ok paths) ↔
      ∀ file, ¬ Astray settings checkout file := by
  constructor
  · rintro ⟨paths, hlisting⟩
    exact (sourceFiles_eq_ok_iff.mp hlisting).1
  · intro hnone
    cases hlisting : sourceFiles settings checkout with
    | ok paths => exact ⟨paths, rfl⟩
    | error e => exact absurd (astray_of_sourceFiles_eq_error hlisting).1 (hnone e.file)

theorem exists_sourceFiles_eq_error_iff :
    (∃ e, sourceFiles settings checkout = .error e) ↔ ∃ file, Astray settings checkout file := by
  rw [← not_iff_not, not_exists (p := Astray settings checkout), ← exists_sourceFiles_eq_ok_iff]
  cases sourceFiles settings checkout <;> simp

theorem exists_of_mem_sourceFiles (h : sourceFiles settings checkout = .ok paths) {path : String}
    (hpath : path ∈ paths) : ∃ file ∈ found settings checkout, ∃ p,
      file.relativeTo? checkout.path = some p ∧ p.text = path := by
  have hmem := (sourceFiles_eq_ok_iff.mp h).2.2.mem_iff.mp hpath
  obtain ⟨p, hp, rfl⟩ := List.mem_map.mp hmem
  obtain ⟨file, hfile, hrelative⟩ := List.mem_filterMap.mp hp
  exact ⟨file, hfile, p, hrelative, rfl⟩

/-- The path of a listed file has names, if there is a manifest.  (A file that is taken for the
checkout itself would have none.) -/
theorem names_of_mem_sourceFiles (hfiles : checkout.files.IsProper)
    (h : sourceFiles settings checkout = .ok paths) {path : String} (hpath : path ∈ paths)
    {node : FileTree.Node} (hmanifest : checkout.node? (.ofText manifestName) = some node) :
    (Path.ofText path).names ≠ [] := by
  obtain ⟨file, hfile, p, hrelative, rfl⟩ := exists_of_mem_sourceFiles h hpath
  obtain ⟨folder, -, hfile⟩ := List.mem_flatMap.mp hfile
  obtain ⟨-, here, rest, hhere, hrest, rfl⟩ := mem_filesUnder_iff.mp hfile
  obtain ⟨hne, hmem⟩ := FileTree.mem_filesBelow_iff.mp hrest
  have hnames : ∀ name ∈ (Path.ofText folder).names ++ rest, Path.IsPlain name := by
    intro name hname
    rcases List.mem_append.mp hname with hbase | hrest
    · exact Path.isPlain_of_mem_ofText hbase
    · obtain ⟨node, hentry, -⟩ := FileTree.mem_files_iff.mp hmem
      exact hfiles.wellNamed _ hentry name (List.mem_append_right _ hrest)
  by_cases hroot : (Path.ofText folder).root = .none
  · rw [relativeTo?_of_relative checkout hroot] at hrelative
    obtain rfl := Option.some.inj hrelative
    rw [Path.names_ofText_text_mk hnames]
    exact List.append_ne_nil_of_right_ne_nil _ hne
  · rw [Path.join_of_root_ne_none hroot] at hhere hrelative
    rw [absolute_of_root_ne_none checkout hroot] at hhere
    obtain ⟨hnone, hjoin⟩ := Path.relativeTo?_eq_some_iff.mp hrelative
    rw [Path.join_of_root_eq_none hnone, Path.join_of_root_eq_none rfl, Path.mk.injEq] at hjoin
    obtain ⟨root, names⟩ := p
    obtain rfl : root = .none := hnone
    rw [Path.names_ofText_text_mk fun name hname =>
      hnames name (hjoin.2 ▸ List.mem_append_right _ hname)]
    rintro rfl
    -- The checkout is this file; but there is a manifest below the checkout.
    obtain ⟨home, hhome⟩ := exists_home_of_manifest hmanifest
    rw [absolute_of_root_ne_none checkout (hjoin.1 ▸ hroot), ← List.append_nil checkout.path.names,
      hjoin.2] at hhome
    have hdots : ".." ∉ rest := fun hdots =>
      hfiles.dots_notMem hmem (List.mem_append_right _ hdots)
    obtain ⟨here', hhere', rfl, hdirectory⟩ := FileTree.exists_of_directory?_append hdots hhome
    obtain rfl := Option.some.inj (hhere.symm.trans hhere')
    exact absurd ((hfiles.isDirectory_eq_false hmem).symm.trans (hdirectory hne)) Bool.false_ne_true

end SignatureSearch.Checkout
