/-
# `Proofs.Indexing.Listing` — which files are listed, and how often

The source folders are walked one after the other, and what is found below each
of them is put together.  For folders that are relative and do not lead back,

    found below a folder    the source files that the folder contains, once each
    in the listing          a source file, once for every folder that contains it

So a file below two of the folders is listed twice, read twice, and its
functions are stored twice; the listing increases strictly only if no two
folders have a source file in common (`sourceFiles_lists`).

It is taken for granted that no path has two entries and that names have no
slashes in them.  Trees that are made of paths are such (`distinct_ofPaths`,
`wellNamed_ofPaths`).
-/
import SignatureSearch.Proofs.Indexing.Status

namespace SignatureSearch

/-! ## The files of a folder -/

/-- A relative path that does not lead back. -/
def Path.IsDescending (p : Path) : Prop :=
  p.root = .none ∧ ".." ∉ p.names

instance (p : Path) : Decidable p.IsDescending :=
  inferInstanceAs (Decidable (_ ∧ _))

namespace Checkout

variable {settings : Settings} {checkout : Checkout} {extensions : List String} {folder : String}
  {home names : List String} {p q : Path} {paths : List String}

/-- Where the checkout is. -/
def home? (checkout : Checkout) : Option (List String) :=
  checkout.files.directory? (checkout.absolute checkout.path)

/-- The files of a checkout that have one of some extensions, by their paths from there. -/
def sources (checkout : Checkout) (extensions : List String) : List Path :=
  match checkout.home? with
  | some home =>
    ((checkout.files.filesBelow home).map (Path.mk .none)).filter (hasExtension extensions)
  | none => []

/-- Whether a file is below a folder. -/
def contains (folder : String) (p : Path) : Bool :=
  p.isBelow (Path.ofText folder)

theorem mem_sources_iff : p ∈ sources checkout extensions ↔ ∃ home names,
    checkout.home? = some home ∧ names ∈ checkout.files.filesBelow home ∧ p = ⟨.none, names⟩ ∧
      hasExtension extensions p = true := by
  unfold sources
  cases checkout.home? with
  | none => simp
  | some home =>
      rw [List.mem_filter, List.mem_map]
      constructor
      · rintro ⟨⟨names, hnames, rfl⟩, hextension⟩
        exact ⟨home, names, rfl, hnames, rfl, hextension⟩
      · rintro ⟨_, names, hhome, hnames, rfl, hextension⟩
        obtain rfl := Option.some.inj hhome
        exact ⟨⟨names, hnames, rfl⟩, hextension⟩

theorem hasExtension_join (extensions : List String) (hne : names ≠ []) :
    hasExtension extensions (p.join ⟨.none, names⟩) = hasExtension extensions ⟨.none, names⟩ := by
  have hlast : (p.join ⟨.none, names⟩).lastName? = (Path.mk .none names).lastName? := by
    rw [Path.join_of_root_eq_none rfl]
    exact List.getLast?_append_of_ne_nil _ hne
  unfold hasExtension Path.lowerSuffix Path.suffix
  rw [hlast]

/-- What is found below a folder are the source files that it contains. -/
theorem filesUnder_eq_map (h : (Path.ofText folder).IsDescending) (checkout : Checkout)
    (extensions : List String) :
    checkout.filesUnder extensions folder =
      ((sources checkout extensions).filter (contains folder)).map checkout.path.join := by
  obtain ⟨hroot, hdots⟩ := h
  unfold filesUnder sources home?
  dsimp only
  rw [absolute_join checkout hroot]
  cases hhome : checkout.files.directory? (checkout.absolute checkout.path) with
  | none =>
      cases hfolder : checkout.files.directory?
          (checkout.absolute checkout.path ++ (Path.ofText folder).names) with
      | none => rfl
      | some there =>
          obtain ⟨home, hhome', -⟩ := FileTree.exists_of_directory?_append hdots hfolder
          cases hhome.symm.trans hhome'
  | some home =>
      have hcontains : contains folder ∘ Path.mk .none = fun names =>
          (Path.ofText folder).names.isPrefixOf names &&
            (Path.ofText folder).names.length < names.length := by
        funext names
        simp [contains, Path.isBelow, hroot]
      dsimp only
      rw [List.filter_comm, List.filter_map, hcontains, ← FileTree.map_append_filesBelow_append,
        List.map_map]
      cases hfolder : checkout.files.directory?
          (checkout.absolute checkout.path ++ (Path.ofText folder).names) with
      | none =>
          rw [FileTree.filesBelow_append_eq_nil hdots hhome hfolder]
          rfl
      | some there =>
          obtain ⟨home', hhome', rfl, -⟩ := FileTree.exists_of_directory?_append hdots hfolder
          obtain rfl := Option.some.inj (hhome.symm.trans hhome')
          have hpath : (fun rest => Path.mk (checkout.path.join (.ofText folder)).root
              ((checkout.path.join (.ofText folder)).names ++ rest)) =
              checkout.path.join ∘ Path.mk .none ∘ ((Path.ofText folder).names ++ ·) := by
            funext rest
            simp [Path.join_of_root_eq_none, hroot]
          dsimp only
          rw [hpath, List.filter_map, List.filter_map, List.map_map]
          refine congrArg (List.map _) (List.filter_congr fun rest hrest => ?_)
          have hne := (FileTree.mem_filesBelow_iff.mp hrest).1
          exact hasExtension_join extensions (List.append_ne_nil_of_right_ne_nil _ hne)

theorem plain_of_mem_sources (h : checkout.files.WellNamed) (hp : p ∈ sources checkout extensions) :
    p.root = .none ∧ ∀ name ∈ p.names, Path.IsPlain name := by
  obtain ⟨home, names, -, hnames, rfl, -⟩ := mem_sources_iff.mp hp
  obtain ⟨node, hentry, -⟩ := FileTree.mem_files_iff.mp (FileTree.mem_filesBelow_iff.mp hnames).2
  exact ⟨rfl, fun name hname => h _ hentry name (List.mem_append_right _ hname)⟩

theorem eq_of_text_eq (h : checkout.files.WellNamed) (hp : p ∈ sources checkout extensions)
    (hq : q ∈ sources checkout extensions) (htext : p.text = q.text) : p = q := by
  obtain ⟨hroot, hplain⟩ := plain_of_mem_sources h hp
  obtain ⟨hroot', hplain'⟩ := plain_of_mem_sources h hq
  obtain ⟨root, names⟩ := p
  obtain ⟨root', names'⟩ := q
  obtain rfl : root = .none := hroot
  obtain rfl : root' = .none := hroot'
  have hback := Path.names_ofText_text_mk hplain
  rw [htext, Path.names_ofText_text_mk hplain'] at hback
  exact congrArg _ hback.symm

theorem nodup_map_text_sources (hdistinct : checkout.files.Distinct)
    (hnames : checkout.files.WellNamed) (extensions : List String) :
    ((sources checkout extensions).map Path.text).Nodup := by
  refine List.Nodup.map_on (fun p hp q hq => eq_of_text_eq hnames hp hq) ?_
  unfold sources
  split
  · refine List.Nodup.filter _ ((hdistinct.nodup_filesBelow _).map fun names names' h => ?_)
    exact congrArg Path.names h
  · exact List.nodup_nil

/-- Among the files that a folder contains, a source file is there once if it is one of them, and
else not at all. -/
theorem count_filter_contains (hdistinct : checkout.files.Distinct)
    (hnames : checkout.files.WellNamed) (hp : p ∈ sources checkout extensions) (folder : String) :
    (((sources checkout extensions).filter (contains folder)).map Path.text).count p.text =
      if contains folder p then 1 else 0 := by
  have hnodup := nodup_map_text_sources hdistinct hnames extensions
  have hmem : p.text ∈ ((sources checkout extensions).filter (contains folder)).map Path.text ↔
      contains folder p = true := by
    rw [List.mem_map]
    constructor
    · rintro ⟨q, hq, htext⟩
      obtain ⟨hq, hcontains⟩ := List.mem_filter.mp hq
      rwa [← eq_of_text_eq hnames hq hp htext]
    · exact fun hcontains => ⟨p, List.mem_filter.mpr ⟨hp, hcontains⟩, rfl⟩
  rw [(hnodup.sublist (List.filter_sublist.map Path.text)).count]
  exact if_congr hmem rfl rfl

/-! ## The listing -/

theorem sum_map_ite_one {α : Type} (b : α → Bool) (l : List α) :
    (l.map fun a => if b a then 1 else 0).sum = l.countP b := by
  induction l with
  | nil => rfl
  | cons a rest ih => rw [List.map_cons, List.sum_cons, ih, List.countP_cons, Nat.add_comm]

section Folders

variable (hfolders : ∀ folder ∈ settings.sourceFolders, (Path.ofText folder).IsDescending)
include hfolders

/-- The listing is made of what the folders contain, one folder after the other. -/
theorem listing_eq_flatMap (checkout : Checkout) :
    listing settings checkout = settings.sourceFolders.flatMap fun folder =>
      ((sources checkout settings.sourceExtensions).filter (contains folder)).map Path.text := by
  rw [listing, found, List.filterMap_flatMap, List.map_flatMap]
  refine List.flatMap_congr fun folder hfolder => ?_
  rw [filesUnder_eq_map (hfolders folder hfolder), List.filterMap_map]
  refine congrArg (List.map Path.text) ?_
  have hback : ∀ p ∈ (sources checkout settings.sourceExtensions).filter (contains folder),
      (((·.relativeTo? checkout.path) : Path → Option Path) ∘ checkout.path.join) p = some p := by
    intro p hp
    obtain ⟨_, _, -, -, rfl, -⟩ := mem_sources_iff.mp (List.mem_filter.mp hp).1
    exact Path.relativeTo?_join rfl
  rw [List.filterMap_congr hback, List.filterMap_some]

theorem exists_sourceFiles (checkout : Checkout) :
    ∃ paths, sourceFiles settings checkout = .ok paths := by
  refine exists_sourceFiles_eq_ok_iff.mpr ?_
  rintro file ⟨folder, hfolder, hroot, -⟩
  exact hroot (hfolders folder hfolder).1

theorem count_sourceFiles (hdistinct : checkout.files.Distinct)
    (hnames : checkout.files.WellNamed) (hlisting : sourceFiles settings checkout = .ok paths)
    (hp : p ∈ sources checkout settings.sourceExtensions) :
    paths.count p.text = settings.sourceFolders.countP (contains · p) := by
  rw [(sourceFiles_eq_ok_iff.mp hlisting).2.2.count_eq, listing_eq_flatMap hfolders,
    List.count_flatMap, ← sum_map_ite_one]
  refine congrArg List.sum (List.map_congr_left fun folder _ => ?_)
  exact count_filter_contains hdistinct hnames hp folder

theorem mem_sourceFiles_iff (hlisting : sourceFiles settings checkout = .ok paths) {path : String} :
    path ∈ paths ↔ ∃ p ∈ sources checkout settings.sourceExtensions,
      p.text = path ∧ ∃ folder ∈ settings.sourceFolders, contains folder p = true := by
  rw [(sourceFiles_eq_ok_iff.mp hlisting).2.2.mem_iff, listing_eq_flatMap hfolders,
    List.mem_flatMap]
  constructor
  · rintro ⟨folder, hfolder, hpath⟩
    obtain ⟨p, hp, rfl⟩ := List.mem_map.mp hpath
    obtain ⟨hp, hcontains⟩ := List.mem_filter.mp hp
    exact ⟨p, hp, rfl, folder, hfolder, hcontains⟩
  · rintro ⟨p, hp, rfl, folder, hfolder, hcontains⟩
    exact ⟨folder, hfolder, List.mem_map_of_mem (List.mem_filter.mpr ⟨hp, hcontains⟩)⟩

end Folders

theorem pairwise_lt_iff_nodup {l : List String} (h : l.Pairwise (· ≤ ·)) :
    l.Pairwise (· < ·) ↔ l.Nodup := by
  constructor
  · exact fun hlt => hlt.imp fun hlt => ne_of_lt hlt
  · exact fun hnodup => (h.and hnodup).imp fun hle => lt_of_le_of_ne hle.1 hle.2

end Checkout

namespace Indexing

open Checkout (contains count_sourceFiles exists_sourceFiles mem_sourceFiles_iff
  pairwise_lt_iff_nodup sourceFiles sourceFiles_eq_ok_iff sources)
open Database (functionKey)

variable {settings : Settings} {packageId : String} {checkout : Checkout} {paths : List String}

/-! ## What is stored of the files -/

/-- What is stored of a source file. -/
def functionsAt (settings : Settings) (packageId : String) (checkout : Checkout)
    (exposed : Option (List Json)) (path : String) : List FunctionDraft :=
  match fileOutcome settings packageId checkout exposed path with
  | .ok outcome => outcome.functions
  | .error _ => []

/-- The files of a package are read if every path of the listing is, in its order. -/
theorem fileOutcomes_eq_ok_iff {outcomes : List FileOutcome} :
    fileOutcomes settings packageId checkout = .ok outcomes ↔
      ∃ paths exposed, sourceFiles settings checkout = .ok paths ∧
        checkout.exposed = .ok exposed ∧
        List.Forall₂ (fun path outcome =>
          fileOutcome settings packageId checkout exposed path = .ok outcome) paths outcomes := by
  cases hlisting : sourceFiles settings checkout with
  | error e =>
      rw [fileOutcomes, hlisting]
      constructor
      · intro h
        cases h
      · rintro ⟨_, _, h, -⟩
        cases h
  | ok paths =>
      rw [fileOutcomes_of_sourceFiles hlisting]
      cases hexposed : checkout.exposed with
      | error e =>
          constructor
          · intro h
            cases h
          · rintro ⟨_, _, -, h, -⟩
            cases h
      | ok exposed =>
          show paths.mapM (fileOutcome settings packageId checkout exposed) = _ ↔ _
          constructor
          · exact fun hread => ⟨paths, exposed, rfl, rfl, Store.forall₂_of_mapM_eq_ok hread⟩
          · rintro ⟨paths', exposed', hpaths, hexposed', hall⟩
            obtain rfl := Except.ok.inj hpaths
            obtain rfl := Except.ok.inj hexposed'
            exact Store.mapM_eq_ok_of_forall₂ hall

/-- The functions of a checkout are those of the paths in the listing, path by path. -/
theorem collected_eq_flatMap {package : Package} {drafts : List FunctionDraft}
    (hlisting : sourceFiles settings checkout = .ok paths)
    (h : collected settings package checkout = .ok drafts) :
    ∃ exposed, checkout.exposed = .ok exposed ∧
      drafts = paths.flatMap
        (functionsAt settings package.name.identifier checkout exposed) := by
  cases hread : fileOutcomes settings package.name.identifier checkout with
  | error e =>
      rw [collected, hread] at h
      cases h
  | ok outcomes =>
      rw [collected, hread] at h
      obtain rfl := Except.ok.inj h
      obtain ⟨paths', exposed, hlisting', hexposed, hall⟩ := fileOutcomes_eq_ok_iff.mp hread
      obtain rfl := Except.ok.inj (hlisting.symm.trans hlisting')
      refine ⟨exposed, hexposed, ?_⟩
      clear hread h hlisting hlisting'
      dsimp only
      induction hall with
      | nil => rfl
      | cons hfile _ ih => rw [List.flatMap_cons, List.flatMap_cons, ih, functionsAt, hfile]

/-- **How often a file is listed.**  If the source folders are relative and do not lead back, then
there is a listing, in the order of the paths.  It has in it just the files of the checkout with a
source extension that one of the folders contains, each of them once for every such folder.  So it
increases strictly just when no file is contained in two of the folders.  What is stored of a
package is put together along the listing: of a file that is in it twice everything is stored
twice. -/
theorem sourceFiles_lists (hdistinct : checkout.files.Distinct)
    (hnames : checkout.files.WellNamed)
    (hfolders : ∀ folder ∈ settings.sourceFolders, (Path.ofText folder).IsDescending) :
    ∃ paths, sourceFiles settings checkout = .ok paths ∧
      paths.Pairwise (· ≤ ·) ∧
      (∀ path, path ∈ paths ↔
        ∃ p ∈ sources checkout settings.sourceExtensions, p.text = path ∧
          ∃ folder ∈ settings.sourceFolders, contains folder p = true) ∧
      (∀ p ∈ sources checkout settings.sourceExtensions,
        paths.count p.text = settings.sourceFolders.countP (contains · p)) ∧
      (paths.Pairwise (· < ·) ↔
        ∀ p ∈ sources checkout settings.sourceExtensions,
          settings.sourceFolders.countP (contains · p) ≤ 1) ∧
      ∀ package drafts, collected settings package checkout = .ok drafts →
        ∃ exposed, checkout.exposed = .ok exposed ∧
          drafts = paths.flatMap
            (functionsAt settings package.name.identifier checkout exposed) := by
  obtain ⟨paths, hlisting⟩ := exists_sourceFiles hfolders checkout
  have hsorted := (sourceFiles_eq_ok_iff.mp hlisting).2.1
  have hcount := fun p hp => count_sourceFiles (p := p) hfolders hdistinct hnames hlisting hp
  refine ⟨paths, hlisting, hsorted, fun path => mem_sourceFiles_iff hfolders hlisting, hcount, ?_,
    fun package drafts => collected_eq_flatMap hlisting⟩
  rw [pairwise_lt_iff_nodup hsorted, List.nodup_iff_count_le_one]
  constructor
  · intro h p hp
    rw [← hcount p hp]
    exact h p.text
  · intro h path
    by_cases hpath : path ∈ paths
    · obtain ⟨p, hp, rfl, -⟩ := (mem_sourceFiles_iff hfolders hlisting).mp hpath
      rw [hcount p hp]
      exact h p hp
    · rw [List.count_eq_zero_of_not_mem hpath]
      exact Nat.zero_le 1

/-- A module with one function. -/
def oneFunction : FileTree.Node :=
  .file (.text "module A exposing (f)\nf : Int\nf = 0\n")

/-- Two folders that have no file in common, one of them written with needless dots: their files
are listed once, and the one beside them is not. -/
theorem sourceFiles_lists_sample :
    let settings : Settings := { sourceFolders := ["./src/./", "lib/core"] }
    let checkout : Checkout :=
      { files := ⟨[(["x", "src", "core", "A.ELM"], oneFunction),
          (["x", "lib", "core", "B.elm"], oneFunction), (["x", "lib", "C.elm"], oneFunction)]⟩
        path := ⟨.slash, ["x"]⟩ }
    sourceFiles settings checkout = .ok ["lib/core/B.elm", "src/core/A.ELM"] ∧
      ["lib/core/B.elm", "src/core/A.ELM"].Pairwise (· < ·) := by
  intro settings checkout
  have hdistinct : checkout.files.Distinct := by decide
  have hnames : checkout.files.WellNamed := by decide
  have hfolders : ∀ folder ∈ settings.sourceFolders, (Path.ofText folder).IsDescending := by decide
  obtain ⟨paths, hlisting, hsorted, -, -, hstrict, -⟩ :=
    sourceFiles_lists hdistinct hnames hfolders
  have hfound : Checkout.listing settings checkout = ["src/core/A.ELM", "lib/core/B.elm"] := by
    decide +kernel
  obtain ⟨hnone, -, hperm⟩ := sourceFiles_eq_ok_iff.mp hlisting
  obtain rfl : paths = ["lib/core/B.elm", "src/core/A.ELM"] := by
    refine List.Perm.eq_of_pairwise' hsorted (by decide) (hperm.trans ?_)
    rw [hfound]
    exact List.Perm.swap _ _ _
  exact ⟨hlisting, hstrict.mpr (by decide +kernel)⟩

/-- A folder and another one in it: a file in the inner one is listed twice, and its function is
stored twice. -/
theorem sourceFiles_repeats :
    let settings : Settings := { sourceFolders := ["src", "src/core"] }
    let checkout : Checkout :=
      { files := ⟨[(["x", "src", "core", "A.elm"], oneFunction)]⟩, path := ⟨.slash, ["x"]⟩ }
    let package : Package := { name := { author := "x", project := "y" } }
    let outcome := (indexPackage settings "now" package checkout).runOn ⟨.empty, [], []⟩
    sourceFiles settings checkout = .ok ["src/core/A.elm", "src/core/A.elm"] ∧
      ¬ ["src/core/A.elm", "src/core/A.elm"].Pairwise (· < ·) ∧
      outcome.1 = .ok ⟨package.name, 2, 2, 0, 0, 2, []⟩ ∧
      ∀ id : Nat, id < 2 → outcome.2.store.get? (functionKey settings id) =
        some (FunctionRecord.mk id "x__y" "f" "Int" "A").toFields := by
  intro settings checkout package outcome
  have hfolders : ∀ folder ∈ settings.sourceFolders, (Path.ofText folder).IsDescending := by decide
  have hfound : Checkout.listing settings checkout = ["src/core/A.elm", "src/core/A.elm"] := by
    decide +kernel
  obtain ⟨paths, hlisting⟩ := exists_sourceFiles hfolders checkout
  obtain ⟨-, hsorted, hperm⟩ := sourceFiles_eq_ok_iff.mp hlisting
  obtain rfl : paths = ["src/core/A.elm", "src/core/A.elm"] := by
    exact List.Perm.eq_of_pairwise' hsorted (by decide) (hfound ▸ hperm)
  have hread : fileOutcomes settings package.name.identifier checkout =
      .ok [.indexed [⟨"x__y", "f", "Int", "A"⟩], .indexed [⟨"x__y", "f", "Int", "A"⟩]] := by
    rw [fileOutcomes_of_sourceFiles hlisting]
    decide +kernel
  have hrun := runOn_indexPackage settings "now" package checkout ⟨.empty, [], []⟩
  rw [hread] at hrun
  refine ⟨hlisting, ?_, ?_, ?_⟩
  · decide
  · exact (congrArg Prod.fst hrun).trans (by decide +kernel)
  · intro id hid
    refine (congrArg (fun o => o.2.store.get? (functionKey settings id)) hrun).trans ?_
    interval_cases id <;> decide +kernel

end Indexing
end SignatureSearch
