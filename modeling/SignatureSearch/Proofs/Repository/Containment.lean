/-
# `Proofs.Repository.Containment` — checkouts stay inside of the cache directory

A name of a package may hold anything on both sides of its first slash: further
slashes, single and double dots, nothing between two slashes, and a project that
starts with a slash of its own and so leads away from the cache directory when
it is joined.  Whatever it is, there are two ends only (`location_inside`): the
name is refused, or its checkout lies strictly below the cache directory, at a
path without dots.

Nothing is refused without need.  A name whose parts between slashes are all
proper has its checkout at just these parts, so that two of them never share
one.  The parts of a text are `components`; joining reads the author and the
project apart from each other, and `names_joined` puts them together again.

All of this is lexical, and it is taken for granted that no null character
occurs.
-/
import SignatureSearch.Proofs.Path
import SignatureSearch.Repository

namespace SignatureSearch

/-! ## The two parts of a name -/

theorem Text.cutChar_eq_some_iff {sep : Char} {cs before after : List Char} :
    cutChar sep cs = some (before, after) ↔ cs = before ++ sep :: after ∧ sep ∉ before := by
  constructor
  · intro h
    unfold cutChar at h
    split at h
    · cases h
    · rename_i c rest hdrop
      obtain ⟨rfl, rfl⟩ := Prod.mk.inj (Option.some.inj h)
      have hc : c = sep := by
        have hstop := List.head_dropWhile_not (p := (· != sep)) (l := cs) (by simp [hdrop])
        simpa [hdrop] using hstop
      refine ⟨?_, ?_⟩
      · rw [hc] at hdrop
        rw [← hdrop, List.takeWhile_append_dropWhile]
      · intro hmem
        simpa using List.mem_takeWhile_imp hmem
  · rintro ⟨rfl, hbefore⟩
    have hother : ∀ c ∈ before, (c != sep) = true := by
      intro c hc
      simpa using ne_of_mem_of_not_mem hc hbefore
    unfold cutChar
    rw [List.dropWhile_append_of_pos hother, List.takeWhile_append_of_pos hother,
      List.dropWhile_cons_of_neg (by simp), List.takeWhile_cons_of_neg (by simp), List.append_nil]

namespace PackageName

variable {s : String}

theorem toList_text (n : PackageName) :
    n.text.toList = n.author.toList ++ '/' :: n.project.toList := by
  simp [text]

theorem ofText?_eq_some_iff {n : PackageName} : ofText? s = some n ↔ n.text = s := by
  unfold ofText?
  constructor
  · intro h
    split at h
    · exact absurd h nofun
    · rename_i author project hcut
      obtain ⟨hs, -⟩ := Text.cutChar_eq_some_iff.mp hcut
      dsimp only at h
      split at h
      · obtain rfl := Option.some.inj h
        apply String.toList_inj.mp
        rw [toList_text, String.toList_ofList, String.toList_ofList, hs]
      · exact absurd h nofun
  · rintro rfl
    rw [Text.cutChar_eq_some_iff.mpr ⟨toList_text n, n.slash_not_mem⟩]
    simp only [String.ofList_toList]
    exact dif_pos ⟨n.author_ne, n.project_ne, n.slash_not_mem⟩

/-! ## What stands between slashes -/

def components (s : String) : List String :=
  (Text.splitOn '/' s.toList).map String.ofList

/-- Between slashes there is something that leads on. -/
def IsProper (s : String) : Prop :=
  ∀ part ∈ components s, part ∉ ["", ".", ".."]

instance (s : String) : Decidable (IsProper s) :=
  inferInstanceAs (Decidable (∀ part ∈ _, _))

theorem components_injective {s t : String} (h : components s = components t) : s = t := by
  have hparts : Text.splitOn '/' s.toList = Text.splitOn '/' t.toList :=
    List.map_injective_iff.mpr (fun _ _ => String.ofList_injective) h
  apply String.toList_inj.mp
  rw [← Text.intercalate_splitOn '/' s.toList, hparts, Text.intercalate_splitOn]

theorem components_text (n : PackageName) :
    components n.text = n.author :: components n.project := by
  unfold components
  rw [toList_text, Text.splitOn_append, Text.splitOn_of_notMem n.slash_not_mem,
    List.singleton_append, List.map_cons, String.ofList_toList]

theorem IsProper.names_ofText (h : IsProper s) : (Path.ofText s).names = components s := by
  refine List.filter_eq_self.mpr fun part hpart => ?_
  have hproper := h part hpart
  simp only [List.mem_cons, List.not_mem_nil, or_false, not_or] at hproper
  simp [Path.isName, hproper.1, hproper.2.1]

theorem IsProper.dots_notMem (h : IsProper s) : ".." ∉ components s := by
  intro hmem
  exact h _ hmem (by decide)

theorem IsProper.root_ofText (h : IsProper s) : (Path.ofText s).root = .none := by
  have hhead : s.toList.head? ≠ some '/' := by
    intro hhead
    obtain ⟨rest, hs⟩ := List.head?_eq_some_iff.mp hhead
    have hfirst : "" ∈ components s := by
      unfold components
      rw [hs, Text.splitOn, if_pos rfl]
      exact List.mem_cons_self
    exact h _ hfirst (by decide)
  rw [Path.root_ofText, Path.slashes_of_head? hhead]
  rfl

theorem IsProper.exists_ofText? (h : IsProper s) (hslash : '/' ∈ s.toList) :
    ∃ n, ofText? s = some n := by
  obtain ⟨before, after, hs, hbefore⟩ := List.eq_append_cons_of_mem hslash
  have hparts : components s =
      String.ofList before :: (Text.splitOn '/' after).map String.ofList := by
    unfold components
    rw [hs, Text.splitOn_append, Text.splitOn_of_notMem hbefore]
    rfl
  have hauthor : String.ofList before ≠ "" := by
    intro hempty
    exact h "" (hempty ▸ hparts ▸ List.mem_cons_self) (by decide)
  have hproject : String.ofList after ≠ "" := by
    intro hempty
    obtain rfl := String.ofList_eq_empty_iff.mp hempty
    exact h "" (hparts ▸ List.mem_cons_of_mem _ List.mem_cons_self) (by decide)
  have hauthorChars : '/' ∉ (String.ofList before).toList := by
    rwa [String.toList_ofList]
  refine ⟨⟨_, _, hauthor, hproject, hauthorChars⟩, ofText?_eq_some_iff.mpr ?_⟩
  apply String.toList_inj.mp
  rw [toList_text, String.toList_ofList, String.toList_ofList, hs]

end PackageName

/-! ## Places of checkouts -/

namespace Repository

open PackageName

variable {cacheDir : Path} {name : PackageName} {s : String}

def directory (here dir : String) : Path :=
  (Path.ofText here).join (.ofText dir)

/-- The author and the project, one after the other, from the cache directory on. -/
def joined (cacheDir : Path) (name : PackageName) : Path :=
  (cacheDir.resolve.join (.ofText name.author)).join (.ofText name.project)

theorem mem_names_join {p q : Path} {part : String} (h : part ∈ (p.join q).names) :
    part ∈ p.names ∨ part ∈ q.names := by
  unfold Path.join at h
  split at h
  · exact List.mem_append.mp h
  · exact Or.inr h

theorem isPlain_directory (here dir : String) :
    ∀ part ∈ (directory here dir).names, Path.IsPlain part := by
  intro part hpart
  rcases mem_names_join hpart with hpart | hpart
  · exact Path.isPlain_of_mem_ofText hpart
  · exact Path.isPlain_of_mem_ofText hpart

theorem isPlain_joined (hdir : ∀ part ∈ cacheDir.names, Path.IsPlain part) :
    ∀ part ∈ (joined cacheDir name).names, Path.IsPlain part := by
  intro part hpart
  rcases mem_names_join hpart with hpart | hpart
  · rcases mem_names_join hpart with hpart | hpart
    · exact (Path.isResolved_resolve hdir).isPlain part hpart
    · exact Path.isPlain_of_mem_ofText hpart
  · exact Path.isPlain_of_mem_ofText hpart

/-! ### Null characters -/

theorem holdsNull_eq_false_iff {p : Path} :
    holdsNull p = false ↔ ∀ part ∈ p.names, Char.ofNat 0 ∉ part.toList := by
  simp [holdsNull, List.any_eq_false]

theorem notMem_of_mem_ofText {c : Char} (h : c ∉ s.toList) :
    ∀ part ∈ (Path.ofText s).names, c ∉ part.toList := by
  intro part hpart hc
  obtain ⟨hmem, -⟩ := List.mem_filter.mp hpart
  obtain ⟨chars, hchars, rfl⟩ := List.mem_map.mp hmem
  rw [String.toList_ofList] at hc
  exact h (Text.mem_of_mem_splitOn hchars hc)

theorem holdsNull_directory {here dir : String} (hhere : Char.ofNat 0 ∉ here.toList)
    (hdir : Char.ofNat 0 ∉ dir.toList) : holdsNull (directory here dir) = false := by
  refine holdsNull_eq_false_iff.mpr fun part hpart => ?_
  rcases mem_names_join hpart with hpart | hpart
  · exact notMem_of_mem_ofText hhere part hpart
  · exact notMem_of_mem_ofText hdir part hpart

theorem holdsNull_joined (hdir : holdsNull cacheDir = false)
    (hname : Char.ofNat 0 ∉ name.text.toList) : holdsNull (joined cacheDir name) = false := by
  rw [toList_text, List.mem_append, List.mem_cons, not_or, not_or] at hname
  refine holdsNull_eq_false_iff.mpr fun part hpart => ?_
  rcases mem_names_join hpart with hpart | hpart
  · rcases mem_names_join hpart with hpart | hpart
    · rcases Path.mem_of_mem_foldl_climb hpart with hnone | hpart
      · exact absurd hnone List.not_mem_nil
      · exact holdsNull_eq_false_iff.mp hdir part hpart
    · exact notMem_of_mem_ofText hname.1 part hpart
  · exact notMem_of_mem_ofText hname.2.2 part hpart

/-! ### Accepted and refused names -/

theorem location_of_extends (hdir : holdsNull cacheDir = false)
    (hname : Char.ofNat 0 ∉ name.text.toList)
    (h : (joined cacheDir name).resolve.Extends cacheDir.resolve) :
    location cacheDir name = .ok (joined cacheDir name).resolve := by
  have hnull := holdsNull_joined hdir hname
  unfold joined at hnull h ⊢
  unfold location
  dsimp only
  rw [hdir, hnull, Path.isBelow_iff.mpr h]
  rfl

theorem location_of_not_extends (hdir : holdsNull cacheDir = false)
    (hname : Char.ofNat 0 ∉ name.text.toList)
    (h : ¬ (joined cacheDir name).resolve.Extends cacheDir.resolve) :
    location cacheDir name = .error (.outside name) := by
  have hnull := holdsNull_joined hdir hname
  rw [← Path.isBelow_iff, Bool.not_eq_true] at h
  unfold joined at hnull h
  unfold location
  dsimp only
  rw [hdir, hnull, h]
  rfl

/-- Proper parts are put behind the cache directory, the author and the project together. -/
theorem names_joined (h : IsProper name.text) :
    (joined cacheDir name).names = cacheDir.resolve.names ++ components name.text := by
  have hparts := components_text name
  have hauthor : Path.IsPlain name.author := by
    have hproper := h name.author (hparts ▸ List.mem_cons_self)
    simp only [List.mem_cons, List.not_mem_nil, or_false, not_or] at hproper
    exact ⟨by simp [Path.isName, hproper.1, hproper.2.1], name.slash_not_mem⟩
  have hproject : IsProper name.project := by
    intro part hpart
    exact h part (hparts ▸ List.mem_cons_of_mem _ hpart)
  have hrootAuthor : (Path.ofText name.author).root = .none := by
    rw [Path.root_ofText, hauthor.slashes_eq]
    rfl
  unfold joined Path.join
  rw [hproject.root_ofText, hrootAuthor]
  show cacheDir.resolve.names ++ (Path.ofText name.author).names ++
    (Path.ofText name.project).names = _
  rw [Path.names_ofText_of_isPlain hauthor, hproject.names_ofText, hparts, List.append_assoc]
  rfl

theorem resolve_joined (h : IsProper name.text) :
    (joined cacheDir name).resolve =
      ⟨.slash, cacheDir.resolve.names ++ components name.text⟩ := by
  have hdots : ".." ∉ cacheDir.resolve.names ++ components name.text := by
    rw [List.mem_append, not_or]
    exact ⟨Path.dots_notMem_foldl_climb List.not_mem_nil, h.dots_notMem⟩
  unfold Path.resolve at hdots ⊢
  rw [names_joined h]
  exact congrArg (Path.mk .slash) (Path.foldl_climb_of_notMem hdots [])

/-- A name with proper parts is accepted, and its checkout lies at these parts. -/
theorem location_of_isProper (hdir : holdsNull cacheDir = false)
    (hname : Char.ofNat 0 ∉ name.text.toList) (h : IsProper name.text) :
    location cacheDir name = .ok ⟨.slash, cacheDir.resolve.names ++ components name.text⟩ := by
  rw [← resolve_joined h]
  refine location_of_extends hdir hname ?_
  rw [resolve_joined h]
  refine ⟨rfl, components name.text, ?_, rfl⟩
  rw [components_text]
  exact List.cons_ne_nil _ _

/-- A checkout lies strictly below the cache directory, or the name is refused, for every name of a
package.  A name with proper parts is accepted, with its checkout at these parts below the cache
directory; two of them have different checkouts. -/
theorem location_inside {here dir : String} (hhere : Char.ofNat 0 ∉ here.toList)
    (hdir : Char.ofNat 0 ∉ dir.toList) :
    (∀ text name, PackageName.ofText? text = some name → Char.ofNat 0 ∉ text.toList →
      location (directory here dir) name = .error (.outside name) ∨
        ∃ path, location (directory here dir) name = .ok path ∧ path.IsResolved ∧
          path.Extends (directory here dir).resolve) ∧
      (∀ text, IsProper text → '/' ∈ text.toList → Char.ofNat 0 ∉ text.toList →
        ∃ name, PackageName.ofText? text = some name ∧
          location (directory here dir) name =
            .ok ⟨.slash, (directory here dir).resolve.names ++ components text⟩) ∧
      ∀ text text' name name', IsProper text → IsProper text' →
        Char.ofNat 0 ∉ text.toList → Char.ofNat 0 ∉ text'.toList →
        PackageName.ofText? text = some name → PackageName.ofText? text' = some name' →
        text ≠ text' →
        location (directory here dir) name ≠ location (directory here dir) name' := by
  have hnull := holdsNull_directory hhere hdir
  have hplain := isPlain_directory here dir
  refine ⟨?_, ?_, ?_⟩
  · intro text name hread hclear
    obtain rfl := ofText?_eq_some_iff.mp hread
    by_cases hextends : (joined (directory here dir) name).resolve.Extends
        (directory here dir).resolve
    · exact Or.inr ⟨_, location_of_extends hnull hclear hextends,
        Path.isResolved_resolve (isPlain_joined hplain), hextends⟩
    · exact Or.inl (location_of_not_extends hnull hclear hextends)
  · intro text hproper hslash hclear
    obtain ⟨name, hread⟩ := hproper.exists_ofText? hslash
    obtain rfl := ofText?_eq_some_iff.mp hread
    exact ⟨name, hread, location_of_isProper hnull hclear hproper⟩
  · intro text text' name name' hproper hproper' hclear hclear' hread hread' hne hsame
    obtain rfl := ofText?_eq_some_iff.mp hread
    obtain rfl := ofText?_eq_some_iff.mp hread'
    rw [location_of_isProper hnull hclear hproper,
      location_of_isProper hnull hclear' hproper'] at hsame
    have hnames := congrArg Path.names (Except.ok.inj hsame)
    exact hne (components_injective (List.append_cancel_left hnames))

/-- A cache directory that is given in a roundabout way: a name may leave it and come back, and may
not lead elsewhere; proper names have places of their own. -/
theorem location_inside_sample :
    (∃ path, location (directory "/srv" "./cache/../repos")
        { author := "..", project := "repos//x" } = .ok path ∧ path.IsResolved ∧
          path.Extends (directory "/srv" "./cache/../repos").resolve) ∧
      location (directory "/srv" "./cache/../repos")
        { author := "x", project := "/etc/passwd" } =
          .error (.outside { author := "x", project := "/etc/passwd" }) ∧
      (∃ name, ofText? "elm/core/next" = some name ∧
        location (directory "/srv" "./cache/../repos") name =
          .ok ⟨.slash, ["srv", "repos", "elm", "core", "next"]⟩) ∧
      location (directory "/srv" "./cache/../repos") { author := "elm", project := "core" } ≠
        location (directory "/srv" "./cache/../repos") { author := "elm", project := "json" } := by
  have hhere : Char.ofNat 0 ∉ "/srv".toList := by decide
  have hdir : Char.ofNat 0 ∉ "./cache/../repos".toList := by decide
  obtain ⟨hinside, hproper, hdistinct⟩ := location_inside hhere hdir
  refine ⟨?_, ?_, ?_, ?_⟩
  · have hback := hinside "../repos//x" { author := "..", project := "repos//x" }
      (by decide) (by decide)
    exact hback.resolve_left (by decide)
  · decide
  · exact hproper "elm/core/next" (by decide) (by decide) (by decide)
  · exact hdistinct "elm/core" "elm/json" _ _ (by decide) (by decide) (by decide) (by decide)
      (by decide) (by decide) (by decide)

end Repository
end SignatureSearch
