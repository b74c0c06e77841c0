/-
# `Proofs.Indexing.Alteration` — one file is changed

A file is put in the place of another one.  What is asked about a checkout, and
what it depends on:

    which files are listed  not on what is in the files
    what is exposed         on the manifest alone
    what a path leads to    on the file at that place alone

So the same files are listed as before (`sourceFiles_put`), also where source
folders lead out of the checkout, and a path that leads elsewhere finds what it
found before (`node?_put_of_ne`).
-/
import SignatureSearch.Proofs.Indexing.Listing

namespace SignatureSearch.Checkout

variable {settings : Settings} {checkout : Checkout} {names : List String} {node : FileTree.Node}
  {p : Path} {paths : List String}

/-- A checkout with something else in the place of a file. -/
def put (checkout : Checkout) (names : List String) (node : FileTree.Node) : Checkout :=
  { checkout with files := checkout.files.put names node }

/-- The place that a path from the checkout leads to. -/
def place? (checkout : Checkout) (p : Path) : Option (List String) :=
  checkout.files.place? (checkout.absolute (checkout.path.join p))

/-! ## Where paths lead -/

theorem absolute_put (checkout : Checkout) (names : List String) (node : FileTree.Node) (p : Path) :
    (checkout.put names node).absolute p = checkout.absolute p := rfl

theorem node?_put_self (h : checkout.files.Replaces names node)
    (hplace : checkout.place? p = some names) : (checkout.put names node).node? p = some node :=
  FileTree.follow?_put_self h hplace

theorem node?_put_of_ne (h : checkout.files.Replaces names node)
    (hplace : checkout.place? p ≠ some names) :
    (checkout.put names node).node? p = checkout.node? p :=
  FileTree.follow?_put_of_ne h hplace

/-! ## The listing and the manifest -/

theorem filesUnder_put (h : checkout.files.Replaces names node) (extensions : List String)
    (folder : String) :
    ((checkout.put names node).filesUnder extensions folder).Perm
      (checkout.filesUnder extensions folder) := by
  unfold filesUnder
  dsimp only
  rw [absolute_put]
  dsimp only [put]
  rw [FileTree.directory?_put h]
  cases checkout.files.directory? (checkout.absolute (checkout.path.join (.ofText folder))) with
  | none => exact List.Perm.refl _
  | some here => exact ((FileTree.filesBelow_put h here).map _).filter _

theorem found_put (h : checkout.files.Replaces names node) (settings : Settings) :
    (found settings (checkout.put names node)).Perm (found settings checkout) :=
  List.Perm.flatMap_left _ fun folder _ => filesUnder_put h settings.sourceExtensions folder

theorem sourceFiles_put (h : checkout.files.Replaces names node)
    (hlisting : sourceFiles settings checkout = .ok paths) :
    sourceFiles settings (checkout.put names node) = .ok paths := by
  have hfound := found_put h settings
  rw [sourceFiles_eq_ok_iff] at hlisting ⊢
  obtain ⟨hnone, hsorted, hperm⟩ := hlisting
  refine ⟨fun file hastray => hnone file ?_, hsorted, hperm.trans ?_⟩
  · rw [astray_iff] at hastray ⊢
    exact ⟨hfound.subset hastray.1, hastray.2⟩
  · exact ((hfound.filterMap _).map _).symm

/-- The same modules are exposed, as long as the manifest is left alone. -/
theorem exposed_put (h : checkout.files.Replaces names node)
    (hmanifest : checkout.place? (.ofText manifestName) ≠ some names) :
    (checkout.put names node).exposed = checkout.exposed := by
  have hsame : manifest (checkout.put names node) = manifest checkout := by
    rw [manifest, node?_put_of_ne h hmanifest, manifest]
  rw [exposed, hsame, exposed]

/-- A file of a checkout is changed.  It is not the manifest, and one path of the listing leads to
it. -/
structure Alters (settings : Settings) (checkout : Checkout) (names : List String)
    (node : FileTree.Node) : Prop extends checkout.files.Replaces names node where
  ne_manifest : checkout.place? (.ofText manifestName) ≠ some names
  once : ∃ paths, sourceFiles settings checkout = .ok paths ∧
    paths.countP (fun path => checkout.place? (.ofText path) = some names) = 1

theorem exists_of_countP_eq_one {α : Type} {b : α → Bool} {l : List α} (h : l.countP b = 1) :
    ∃ before a later, l = before ++ a :: later ∧ b a = true ∧
      ∀ other ∈ before ++ later, b other = false := by
  obtain ⟨a, hmem, ha⟩ := List.countP_pos_iff.mp (h ▸ Nat.zero_lt_one)
  obtain ⟨before, later, rfl⟩ := List.append_of_mem hmem
  rw [List.countP_append, List.countP_cons_of_pos ha] at h
  have hnone : (before ++ later).countP b = 0 := by
    rw [List.countP_append]
    omega
  refine ⟨before, a, later, rfl, ha, fun other hother => ?_⟩
  exact Bool.eq_false_iff.mpr (List.countP_eq_zero.mp hnone other hother)

/-- The path that leads to a changed file parts the listing: all others lead elsewhere. -/
theorem Alters.exists_path (h : Alters settings checkout names node)
    (hlisting : sourceFiles settings checkout = .ok paths) :
    ∃ before path later, paths = before ++ path :: later ∧
      checkout.place? (.ofText path) = some names ∧
      ∀ other ∈ before ++ later, checkout.place? (.ofText other) ≠ some names := by
  obtain ⟨paths', hlisting', honce⟩ := h.once
  obtain rfl := Except.ok.inj (hlisting.symm.trans hlisting')
  obtain ⟨before, path, later, hpaths, hpath, hothers⟩ := exists_of_countP_eq_one honce
  exact ⟨before, path, later, hpaths, of_decide_eq_true hpath,
    fun other hother => of_decide_eq_false (hothers other hother)⟩

end SignatureSearch.Checkout
