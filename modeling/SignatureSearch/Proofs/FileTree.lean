/-
# `Proofs.FileTree` — what is where in a tree

A tree is a list of entries, and everything else about it is asked of them.
Three conditions on a tree come up:

    Distinct    no path has two entries
    WellNamed   names can be told from the texts of paths
    IsProper    names are such, none of them leads back, and nothing is below a
                file

A tree that is made of paths has the first two (`distinct_ofPaths`,
`wellNamed_ofPaths`).  The last one holds in a file system.

Names are followed from directory to directory.  Where they do not lead back,
they lead to where they say (`exists_of_directory?_append`), and the files there
are the files whose names begin so (`map_append_filesBelow_append`).

If a file takes the place of another one, then the directories are what they
were, and so is what every other path leads to (`follow?_put_of_ne`).
-/
import Mathlib.Data.List.Nodup
import SignatureSearch.FileTree
import SignatureSearch.Proofs.Path

namespace SignatureSearch.FileTree

variable {tree : FileTree} {names more path here other : List String} {node old : Node}

/-! ## Conditions on trees -/

/-- All names in a tree can be told from the texts of paths. -/
def WellNamed (tree : FileTree) : Prop :=
  ∀ entry ∈ tree.entries, ∀ name ∈ entry.1, Path.IsPlain name

instance (tree : FileTree) : Decidable tree.WellNamed :=
  inferInstanceAs (Decidable (∀ entry ∈ tree.entries, ∀ name ∈ entry.1, Path.IsPlain name))

/-- A tree as file systems have them: names are plain and do not lead back, and nothing is below a
file. -/
def IsProper (tree : FileTree) : Prop :=
  ∀ entry ∈ tree.entries, (∀ name ∈ entry.1, Path.IsPlain name ∧ name ≠ "..") ∧
    (entry.2 ≠ .directory → tree.isDirectory entry.1 = false)

instance (tree : FileTree) : Decidable tree.IsProper :=
  inferInstanceAs (Decidable (∀ entry ∈ tree.entries,
    (∀ name ∈ entry.1, Path.IsPlain name ∧ name ≠ "..") ∧
      (entry.2 ≠ .directory → tree.isDirectory entry.1 = false)))

theorem IsProper.wellNamed (h : tree.IsProper) : tree.WellNamed :=
  fun entry hentry name hname => ((h entry hentry).1 name hname).1

/-- There is one entry at most at every path. -/
def Distinct (tree : FileTree) : Prop :=
  (tree.entries.map (·.1)).Nodup

instance (tree : FileTree) : Decidable tree.Distinct :=
  inferInstanceAs (Decidable (tree.entries.map (·.1)).Nodup)

theorem Distinct.put (h : tree.Distinct) (names : List String) (node : Node) :
    (tree.put names node).Distinct := by
  show ((tree.entries.filter (·.1 ≠ names) ++ [(names, node)]).map (·.1)).Nodup
  rw [List.map_append]
  refine List.nodup_append.mpr ⟨h.sublist (List.filter_sublist.map _), List.nodup_singleton _, ?_⟩
  intro path hpath other hother
  obtain ⟨entry, hentry, rfl⟩ := List.mem_map.mp hpath
  obtain rfl := List.mem_singleton.mp hother
  exact of_decide_eq_true (List.mem_filter.mp hentry).2

theorem WellNamed.put (h : tree.WellNamed) (hnames : ∀ name ∈ names, Path.IsPlain name)
    (node : Node) : (tree.put names node).WellNamed := by
  intro entry hentry
  rcases List.mem_append.mp hentry with hold | hnew
  · exact h entry (List.mem_filter.mp hold).1
  · obtain rfl := List.mem_singleton.mp hnew
    exact hnames

/-- What holds of the tree with nothing in it and stays when something is put at a path that is read
from a text, holds of every tree that is made of such paths. -/
theorem ofPaths_induction {P : FileTree → Prop} (hempty : P empty)
    (hput : ∀ tree text node, P tree → P (tree.put (Path.ofText text).resolve.names node))
    (files : List (String × Node)) :
    P (ofPaths (files.map fun (text, node) => (.ofText text, node))) := by
  rw [ofPaths, List.foldl_map]
  exact List.foldlRecOn files _ hempty fun tree htree file _ => hput tree file.1 file.2 htree

theorem distinct_ofPaths (files : List (String × Node)) :
    (ofPaths (files.map fun (text, node) => (.ofText text, node))).Distinct :=
  ofPaths_induction (P := Distinct) List.nodup_nil (fun _ _ node h => h.put _ node) files

theorem wellNamed_ofPaths (files : List (String × Node)) :
    (ofPaths (files.map fun (text, node) => (.ofText text, node))).WellNamed :=
  ofPaths_induction (P := WellNamed) nofun
    (fun _ _ node h => h.put (fun _ hname => Path.isPlain_of_mem_resolve hname) node) files

/-! ## Files and directories -/

/-- Where the files of a tree are. -/
def files (tree : FileTree) : List (List String) :=
  (tree.entries.filter (·.2 ≠ .directory)).map (·.1)

theorem Distinct.nodup_files (h : tree.Distinct) : tree.files.Nodup :=
  List.Nodup.sublist (List.filter_sublist.map _) h

theorem mem_files_iff : path ∈ tree.files ↔ ∃ node, (path, node) ∈ tree.entries ∧
    node ≠ .directory := by
  simp [files]

theorem IsProper.dots_notMem (h : tree.IsProper) (hpath : path ∈ tree.files) : ".." ∉ path := by
  obtain ⟨node, hentry, -⟩ := mem_files_iff.mp hpath
  exact fun hdots => ((h _ hentry).1 _ hdots).2 rfl

theorem IsProper.isDirectory_eq_false (h : tree.IsProper) (hpath : path ∈ tree.files) :
    tree.isDirectory path = false := by
  obtain ⟨node, hentry, hfile⟩ := mem_files_iff.mp hpath
  exact (h _ hentry).2 hfile

theorem directory?_concat (tree : FileTree) (names : List String) {name : String}
    (h : name ≠ "..") :
    tree.directory? (names ++ [name]) = (tree.directory? names).bind fun here =>
      if tree.isDirectory (here ++ [name]) then some (here ++ [name]) else none := by
  rw [directory?, List.foldlM_append]
  simp only [List.foldlM_cons, List.foldlM_nil, if_neg h, directory?, Option.bind_eq_bind,
    bind_pure]

/-- Names that do not lead back are put behind the others, and there is a directory then. -/
theorem exists_of_directory?_append (hdots : ".." ∉ more)
    (h : tree.directory? (names ++ more) = some path) :
    ∃ here, tree.directory? names = some here ∧ path = here ++ more ∧
      (more ≠ [] → tree.isDirectory path = true) := by
  induction more using List.reverseRecOn generalizing path with
  | nil =>
      rw [List.append_nil] at h
      exact ⟨path, h, (List.append_nil path).symm, fun hne => absurd rfl hne⟩
  | append_singleton more name ih =>
      rw [List.mem_append, List.mem_singleton, not_or] at hdots
      rw [← List.append_assoc, directory?_concat tree _ (Ne.symm hdots.2)] at h
      obtain ⟨there, hthere, hstep⟩ := Option.bind_eq_some_iff.mp h
      obtain ⟨here, hhere, rfl, -⟩ := ih hdots.1 hthere
      split at hstep
      · rename_i hdirectory
        obtain rfl := Option.some.inj hstep
        exact ⟨here, hhere, List.append_assoc _ _ _, fun _ => hdirectory⟩
      · cases hstep

theorem isDirectory_above (hpath : path ∈ tree.files) (hbelow : names <+: path)
    (hlength : names.length < path.length) : tree.isDirectory names = true := by
  obtain ⟨node, hentry, -⟩ := mem_files_iff.mp hpath
  rw [isDirectory, Bool.or_eq_true, List.any_eq_true]
  refine Or.inr ⟨_, hentry, ?_⟩
  simp [List.isPrefixOf_iff_prefix.mpr hbelow, hlength]

theorem directory?_append_above (hdots : ".." ∉ more) (hhere : tree.directory? names = some here)
    (hpath : path ∈ tree.files) (hbelow : here ++ more <+: path)
    (hlength : (here ++ more).length < path.length) :
    tree.directory? (names ++ more) = some (here ++ more) := by
  induction more using List.reverseRecOn with
  | nil => rwa [List.append_nil, List.append_nil]
  | append_singleton more name ih =>
      have hdirectory := isDirectory_above hpath hbelow hlength
      rw [List.mem_append, List.mem_singleton, not_or] at hdots
      rw [← List.append_assoc] at hbelow hlength hdirectory
      rw [List.length_append] at hlength
      rw [← List.append_assoc, directory?_concat tree _ (Ne.symm hdots.2),
        ih hdots.1 ((List.prefix_append _ _).trans hbelow) (by omega), Option.bind_some,
        if_pos hdirectory, List.append_assoc]

/-! ## Files below a path -/

theorem map_append_filesBelow (tree : FileTree) (names : List String) :
    (tree.filesBelow names).map (names ++ ·) =
      tree.files.filter fun path => names.isPrefixOf path && names.length < path.length := by
  rw [filesBelow, List.map_filterMap, files, ← List.filterMap_eq_map, List.filter_filterMap,
    List.filterMap_filter]
  refine List.filterMap_congr fun entry _ => ?_
  obtain ⟨path, node⟩ := entry
  by_cases hfile : node = .directory
  · simp [hfile]
  · cases hbelow : names.isPrefixOf path && names.length < path.length with
    | true =>
        rw [Bool.and_eq_true] at hbelow
        have happend : names ++ path.drop names.length = path :=
          List.prefix_iff_eq_append.mp (List.isPrefixOf_iff_prefix.mp hbelow.1)
        simp [Option.filter, hfile, hbelow.1, hbelow.2, happend]
    | false => simp [Option.filter, hfile, hbelow]

theorem mem_filesBelow_iff :
    path ∈ tree.filesBelow names ↔ path ≠ [] ∧ names ++ path ∈ tree.files := by
  have hmap := map_append_filesBelow tree names
  rw [← List.mem_map_of_injective (List.append_right_injective names), hmap, List.mem_filter]
  simp [List.isPrefixOf_iff_prefix, List.length_pos_iff, and_comm]

theorem Distinct.nodup_filesBelow (h : tree.Distinct) (names : List String) :
    (tree.filesBelow names).Nodup := by
  refine List.Nodup.of_map (names ++ ·) ?_
  rw [map_append_filesBelow]
  exact h.nodup_files.filter _

theorem map_append_filesBelow_append (tree : FileTree) (here more : List String) :
    (tree.filesBelow (here ++ more)).map (more ++ ·) =
      (tree.filesBelow here).filter fun path =>
        more.isPrefixOf path && more.length < path.length := by
  have hbelow : (fun path => (here ++ more).isPrefixOf path && (here ++ more).length < path.length) ∘
      (here ++ ·) = fun path => more.isPrefixOf path && more.length < path.length := by
    funext path
    rw [Function.comp_apply, Bool.eq_iff_iff]
    simp [List.prefix_append_right_inj]
  have hboth : ∀ path ∈ tree.files,
      ((here ++ more).isPrefixOf path && (here ++ more).length < path.length) =
        (((here ++ more).isPrefixOf path && (here ++ more).length < path.length) &&
          (here.isPrefixOf path && here.length < path.length)) := by
    intro path _
    rw [Bool.eq_iff_iff]
    simp only [Bool.and_eq_true, List.isPrefixOf_iff_prefix, decide_eq_true_eq, List.length_append]
    exact ⟨fun h => ⟨h, (List.prefix_append _ _).trans h.1, by omega⟩, fun h => h.1⟩
  have happend : ((here ++ ·) ∘ (more ++ ·)) = fun path : List String => here ++ more ++ path := by
    funext path
    exact (List.append_assoc _ _ _).symm
  refine List.map_injective_iff.mpr (List.append_right_injective here) ?_
  rw [List.map_map, happend, map_append_filesBelow, ← hbelow, ← List.filter_map,
    map_append_filesBelow, List.filter_filter]
  exact List.filter_congr hboth

theorem filesBelow_append_eq_nil (hdots : ".." ∉ more) (hhere : tree.directory? names = some here)
    (h : tree.directory? (names ++ more) = none) : tree.filesBelow (here ++ more) = [] := by
  refine List.eq_nil_iff_forall_not_mem.mpr fun path hpath => ?_
  obtain ⟨hne, hfile⟩ := mem_filesBelow_iff.mp hpath
  have hlength : (here ++ more).length < (here ++ more ++ path).length := by
    have hpos : 0 < path.length := List.length_pos_iff.mpr hne
    simp only [List.length_append]
    omega
  have habove := directory?_append_above hdots hhere hfile (List.prefix_append _ _) hlength
  cases h.symm.trans habove

/-! ## One entry is changed -/

theorem lookup_filter_ne (entries : List (List String × Node)) (names other : List String) :
    (entries.filter (·.1 ≠ names)).lookup other =
      if other = names then none else entries.lookup other := by
  induction entries with
  | nil => exact (ite_self none).symm
  | cons entry rest ih =>
      obtain ⟨path, node⟩ := entry
      by_cases hpath : path = names
      · subst hpath
        rw [List.filter_cons_of_neg (by simp), ih]
        by_cases hother : other = path
        · rw [if_pos hother, if_pos hother]
        · rw [if_neg hother, if_neg hother, List.lookup_cons, beq_false_of_ne hother]
      · rw [List.filter_cons_of_pos (by simpa using hpath), List.lookup_cons, List.lookup_cons, ih]
        by_cases hother : other = path
        · subst hother
          rw [beq_self_eq_true]
          exact (if_neg hpath).symm
        · rw [beq_false_of_ne hother]

theorem node?_put_self (tree : FileTree) (names : List String) (node : Node) :
    (tree.put names node).node? names = some node := by
  rw [node?, put, List.lookup_append, lookup_filter_ne, if_pos rfl, Option.none_or,
    List.lookup_cons, beq_self_eq_true]

theorem node?_put_of_ne (tree : FileTree) (node : Node) (h : other ≠ names) :
    (tree.put names node).node? other = tree.node? other := by
  rw [node?, put, List.lookup_append, lookup_filter_ne, if_neg h, List.lookup_cons,
    beq_false_of_ne h, List.lookup_nil, Option.or_none, node?]

/-- Putting what is there already changes the order of the entries only. -/
theorem perm_put_self (hdistinct : tree.Distinct) (hold : tree.node? names = some old) :
    tree.entries.Perm (tree.put names old).entries := by
  obtain ⟨entries⟩ := tree
  change (entries.map (·.1)).Nodup at hdistinct
  change entries.lookup names = some old at hold
  show entries.Perm (entries.filter (·.1 ≠ names) ++ [(names, old)])
  induction entries with
  | nil => exact absurd hold nofun
  | cons entry rest ih =>
      obtain ⟨path, node⟩ := entry
      rw [List.map_cons, List.nodup_cons] at hdistinct
      rw [List.lookup_cons] at hold
      by_cases hpath : names = path
      · subst hpath
        rw [beq_self_eq_true] at hold
        obtain rfl := Option.some.inj hold
        -- There is no second entry at these names.
        have hrest : rest.filter (·.1 ≠ names) = rest := by
          refine List.filter_eq_self.mpr fun entry hentry => decide_eq_true fun heq => ?_
          exact hdistinct.1 (List.mem_map.mpr ⟨entry, hentry, heq⟩)
        rw [List.filter_cons_of_neg (by simp), hrest]
        exact (List.perm_append_singleton _ _).symm
      · rw [beq_false_of_ne hpath] at hold
        rw [List.filter_cons_of_pos (by simpa using Ne.symm hpath), List.cons_append]
        exact (ih hdistinct.2 hold).cons _

/-- A file takes the place of a file: no path has two entries, there is a file at these names, and no
directory is put there. -/
structure Replaces (tree : FileTree) (names : List String) (node : Node) : Prop where
  distinct : tree.Distinct
  isFile : tree.isFile names = true
  ne_directory : node ≠ .directory

theorem exists_of_isFile (h : tree.isFile names = true) :
    ∃ old, tree.node? names = some old ∧ old ≠ .directory := by
  unfold isFile at h
  split at h
  · rename_i content hnode
    exact ⟨_, hnode, nofun⟩
  · rename_i hnode
    exact ⟨_, hnode, nofun⟩
  · exact absurd h nofun

theorem isDirectory_put (h : tree.Replaces names node) (other : List String) :
    (tree.put names node).isDirectory other = tree.isDirectory other := by
  obtain ⟨old, hold, hne⟩ := exists_of_isFile h.isFile
  rw [isDirectory, isDirectory, (perm_put_self h.distinct hold).any_eq, put, put]
  simp [h.ne_directory, hne]

theorem filesBelow_put (h : tree.Replaces names node) (other : List String) :
    ((tree.put names node).filesBelow other).Perm (tree.filesBelow other) := by
  obtain ⟨old, hold, hne⟩ := exists_of_isFile h.isFile
  refine List.Perm.trans (List.Perm.of_eq ?_) ((perm_put_self h.distinct hold).filterMap _).symm
  rw [filesBelow, put, put, List.filterMap_append, List.filterMap_append]
  refine congrArg (List.filterMap _ _ ++ ·) ?_
  simp [List.filterMap_cons, h.ne_directory, hne]

theorem directory?_put (h : tree.Replaces names node) (other : List String) :
    (tree.put names node).directory? other = tree.directory? other := by
  simp only [directory?, isDirectory_put h]

/-! ## Where paths lead -/

/-- The place that a path leads to, where two dots lead back. -/
def place? (tree : FileTree) (names : List String) : Option (List String) := do
  let name ← names.getLast?
  let here ← tree.directory? names.dropLast
  return here ++ [name]

theorem follow?_eq (tree : FileTree) (names : List String) :
    tree.follow? names = (tree.place? names).bind tree.node? := by
  rw [follow?, place?]
  cases names.getLast? with
  | none => rfl
  | some name =>
      show (tree.directory? names.dropLast).bind _ =
        ((tree.directory? names.dropLast).bind _).bind _
      rw [Option.bind_assoc]
      rfl

theorem place?_put (h : tree.Replaces names node) (other : List String) :
    (tree.put names node).place? other = tree.place? other := by
  rw [place?, directory?_put h, place?]

theorem follow?_put_self (h : tree.Replaces names node) (hplace : tree.place? other = some names) :
    (tree.put names node).follow? other = some node := by
  rw [follow?_eq, place?_put h, hplace, Option.bind_some, node?_put_self]

theorem follow?_put_of_ne (h : tree.Replaces names node)
    (hplace : tree.place? other ≠ some names) :
    (tree.put names node).follow? other = tree.follow? other := by
  rw [follow?_eq, follow?_eq, place?_put h]
  cases hfound : tree.place? other with
  | none => rfl
  | some place =>
      have hne : place ≠ names := fun heq => hplace (hfound.trans (congrArg some heq))
      exact node?_put_of_ne tree node hne

end SignatureSearch.FileTree
