/-
# `Proofs.Indexing.Naming` — the names of modules are those of their files

The name of a module is told from the path of its file in two steps:

    Stem      the suffix of the last name is cut off
    Strips    what leads to the file is cut off: the longest of the source
              folders that the path goes on from, if there is one

Both are said here by what they cut off, not by how it is found.  Of the folders
only their parts count, and not their order (`enclosing?_congr`).  A file that
stands below a folder where the name of its module says gets this name
(`moduleName_inverts`), unless a longer folder is on the way.
-/
import SignatureSearch.Checkout
import SignatureSearch.Proofs.Path

namespace SignatureSearch

/-! ## Suffixes -/

namespace Path

/-- A name, and the name without its suffix.  The suffix starts at the last dot, but neither a first
nor a last character is such a dot. -/
inductive Stem : String → String → Prop
  | cut {stem ext : List Char} : stem ≠ [] → ext ≠ [] → '.' ∉ ext →
      Stem (String.ofList (stem ++ '.' :: ext)) (String.ofList stem)
  | whole {name : String} : (∀ stem ext, name.toList = stem ++ '.' :: ext → '.' ∉ ext →
      stem = [] ∨ ext = []) → Stem name name

theorem takeWhile_reverse_dot {ext : List Char} (h : '.' ∉ ext) (stem : List Char) :
    ((stem ++ '.' :: ext).reverse.takeWhile (· != '.')).reverse = ext := by
  have hrest : ∀ c ∈ ext.reverse, (c != '.') = true := by
    intro c hc
    rw [bne_iff_ne]
    rintro rfl
    exact h (List.mem_reverse.mp hc)
  rw [List.reverse_append, List.reverse_cons, List.append_assoc, List.singleton_append,
    List.takeWhile_append_of_pos hrest, List.takeWhile_cons_of_neg (by simp), List.append_nil,
    List.reverse_reverse]

theorem cutSuffix_of_dot {stem ext : List Char} (h : '.' ∉ ext) :
    (cutSuffix (String.ofList (stem ++ '.' :: ext))).1 =
      if stem = [] ∨ ext = [] then String.ofList (stem ++ '.' :: ext) else String.ofList stem := by
  have hstem : (stem ++ '.' :: ext).take ((stem ++ '.' :: ext).length - ext.length - 1) = stem := by
    have hlength : (stem ++ '.' :: ext).length - ext.length - 1 = stem.length := by
      rw [List.length_append, List.length_cons]
      omega
    rw [hlength, List.take_left]
  unfold cutSuffix
  dsimp only
  rw [String.toList_ofList, takeWhile_reverse_dot h, String.length_ofList, hstem]
  by_cases hcut : stem = [] ∨ ext = []
  · rw [if_pos hcut, if_pos (by simpa using hcut)]
  · rw [if_neg hcut, if_neg (by simpa using hcut)]

theorem cutSuffix_of_notMem {name : String} (h : '.' ∉ name.toList) :
    (cutSuffix name).1 = name := by
  have hall : name.toList.reverse.takeWhile (· != '.') = name.toList.reverse := by
    rw [List.takeWhile_eq_self_iff]
    intro c hc
    rw [bne_iff_ne]
    rintro rfl
    exact h (List.mem_reverse.mp hc)
  unfold cutSuffix
  dsimp only
  rw [hall, List.reverse_reverse, String.length_toList, Nat.sub_self, Nat.zero_sub, List.take_zero]
  rfl

theorem exists_last_dot {cs : List Char} (h : '.' ∈ cs) :
    ∃ stem ext, cs = stem ++ '.' :: ext ∧ '.' ∉ ext := by
  obtain ⟨before, after, hcs, hbefore⟩ := List.eq_append_cons_of_mem (List.mem_reverse.mpr h)
  refine ⟨after.reverse, before.reverse, ?_, List.mem_reverse.not.mpr hbefore⟩
  rw [← List.reverse_reverse cs, hcs]
  simp

theorem last_dot_inj {stem stem' ext ext' : List Char} (h : '.' ∉ ext) (h' : '.' ∉ ext')
    (heq : stem ++ '.' :: ext = stem' ++ '.' :: ext') : stem = stem' ∧ ext = ext' := by
  have hext := takeWhile_reverse_dot h stem
  rw [heq, takeWhile_reverse_dot h'] at hext
  obtain rfl := hext
  exact ⟨List.append_cancel_right heq, rfl⟩

theorem stem_iff {name stem : String} : Stem name stem ↔ stem = (cutSuffix name).1 := by
  constructor
  · rintro (⟨hstem, hext, hdot⟩ | hwhole)
    · rw [cutSuffix_of_dot hdot, if_neg (not_or.mpr ⟨hstem, hext⟩)]
    · by_cases hdot : '.' ∈ name.toList
      · obtain ⟨stem, ext, hname, hext⟩ := exists_last_dot hdot
        obtain rfl : name = String.ofList (stem ++ '.' :: ext) := by
          rw [← hname, String.ofList_toList]
        rw [cutSuffix_of_dot hext, if_pos (hwhole stem ext hname hext)]
      · exact (cutSuffix_of_notMem hdot).symm
  · rintro rfl
    by_cases hdot : '.' ∈ name.toList
    · obtain ⟨stem, ext, hname, hext⟩ := exists_last_dot hdot
      obtain rfl : name = String.ofList (stem ++ '.' :: ext) := by
        rw [← hname, String.ofList_toList]
      rw [cutSuffix_of_dot hext]
      split
      · next hnone =>
          refine .whole fun stem' ext' hname' hext' => ?_
          obtain ⟨rfl, rfl⟩ := last_dot_inj hext hext' (hname.symm.trans hname')
          exact hnone
      · next hcut =>
          obtain ⟨hstem, hext'⟩ := not_or.mp hcut
          exact .cut hstem hext' hext
    · rw [cutSuffix_of_notMem hdot]
      exact .whole fun stem ext hname _ => absurd (hname ▸ by simp) hdot

theorem parts_append (root : Root) (names more : List String) :
    parts ⟨root, names ++ more⟩ = parts ⟨root, names⟩ ++ more := by
  cases root <;> rfl

end Path

/-! ## Source folders -/

namespace Checkout

def partsOf (s : String) : List String :=
  (Path.ofText s).parts

/-- Parts that others go on from. -/
def IsAbove (folder parts : List String) : Prop :=
  folder <+: parts ∧ folder.length < parts.length

instance (folder parts : List String) : Decidable (IsAbove folder parts) :=
  inferInstanceAs (Decidable (_ ∧ _))

theorem isAbove_append {folder rest : List String} :
    IsAbove folder (folder ++ rest) ↔ rest ≠ [] := by
  rw [IsAbove, and_iff_right (List.prefix_append folder rest), List.length_append,
    ← List.length_pos_iff]
  omega

/-- The parts of a file, and what is left of them without the longest of the folders that it is in.
-/
inductive Strips (folders : List (List String)) : List String → List String → Prop
  | folder {folder rest : List String} : folder ∈ folders → rest ≠ [] →
      (∀ other ∈ folders, IsAbove other (folder ++ rest) → other.length ≤ folder.length) →
      Strips folders (folder ++ rest) rest
  | nothing {parts : List String} : (∀ other ∈ folders, ¬ IsAbove other parts) →
      Strips folders parts parts

section Enclosing

variable {folders : List (List String)} {parts folder : List String}

theorem isAbove_iff : (folder.isPrefixOf parts && folder.length < parts.length) = true ↔
    IsAbove folder parts := by
  rw [Bool.and_eq_true, List.isPrefixOf_iff_prefix, decide_eq_true_eq, IsAbove]

theorem enclosing?_eq_none_iff :
    enclosing? folders parts = none ↔ ∀ other ∈ folders, ¬ IsAbove other parts := by
  rw [enclosing?, List.find?_eq_none]
  refine forall_congr' fun other => ?_
  rw [List.mem_mergeSort, isAbove_iff]

theorem enclosing?_sound (h : enclosing? folders parts = some folder) :
    folder ∈ folders ∧ IsAbove folder parts ∧
      ∀ other ∈ folders, IsAbove other parts → other.length ≤ folder.length := by
  obtain ⟨habove, before, later, hsorted, hbefore⟩ := List.find?_eq_some_iff_append.mp h
  have hmem : ∀ other, other ∈ folders ↔ other ∈ before ++ folder :: later := by
    intro other
    rw [← hsorted, List.mem_mergeSort]
  have hordered : (before ++ folder :: later).Pairwise
      fun a b => decide (b.length ≤ a.length) = true := by
    rw [← hsorted]
    exact List.pairwise_mergeSort (fun a b c hab hbc => by simp at *; omega)
      (fun a b => by simp; omega) folders
  refine ⟨(hmem folder).mpr (by simp), isAbove_iff.mp habove, fun other hin hother => ?_⟩
  rcases List.mem_append.mp ((hmem other).mp hin) with hfirst | hrest
  · have hnot := hbefore other hfirst
    rw [isAbove_iff.mpr hother] at hnot
    exact absurd hnot (by decide)
  · rcases List.mem_cons.mp hrest with rfl | hlater
    · exact Nat.le_refl _
    · have hafter := (List.pairwise_append.mp hordered).2.1
      exact of_decide_eq_true ((List.pairwise_cons.mp hafter).1 other hlater)

/-- The longest folder above a file is the enclosing one: there are not two of one length. -/
theorem enclosing?_eq_some_iff :
    enclosing? folders parts = some folder ↔ folder ∈ folders ∧ IsAbove folder parts ∧
      ∀ other ∈ folders, IsAbove other parts → other.length ≤ folder.length := by
  refine ⟨enclosing?_sound, fun ⟨hin, habove, hlongest⟩ => ?_⟩
  cases hfound : enclosing? folders parts with
  | none => exact absurd habove (enclosing?_eq_none_iff.mp hfound folder hin)
  | some found =>
      obtain ⟨hin', habove', hlongest'⟩ := enclosing?_sound hfound
      have hle := hlongest found hin' habove'
      have hlength := Nat.le_antisymm hle (hlongest' folder hin habove)
      have hbegins := List.prefix_of_prefix_length_le habove'.1 habove.1 hle
      rw [hbegins.eq_of_length hlength]

theorem enclosing?_congr {folders' : List (List String)}
    (h : ∀ folder, folder ∈ folders ↔ folder ∈ folders') :
    enclosing? folders parts = enclosing? folders' parts := by
  refine Option.ext fun folder => ?_
  rw [enclosing?_eq_some_iff, enclosing?_eq_some_iff]
  simp only [h]

theorem strips_iff {rest : List String} :
    Strips folders parts rest ↔
      rest = parts.drop ((enclosing? folders parts).getD []).length := by
  constructor
  · rintro (⟨hin, hne, hlongest⟩ | hnothing)
    · rw [enclosing?_eq_some_iff.mpr ⟨hin, isAbove_append.mpr hne, hlongest⟩, Option.getD_some,
        List.drop_left]
    · rw [enclosing?_eq_none_iff.mpr hnothing]
      rfl
  · rintro rfl
    cases hfound : enclosing? folders parts with
    | none => exact .nothing (enclosing?_eq_none_iff.mp hfound)
    | some folder =>
        obtain ⟨hin, habove, hlongest⟩ := enclosing?_sound hfound
        obtain ⟨rest, rfl⟩ := habove.1
        rw [Option.getD_some, List.drop_left]
        exact .folder hin (isAbove_append.mp habove) hlongest

end Enclosing

/-! ## Names of modules -/

variable {folders : List String} {path folder : String} {components : List String}

/-- The name of a module is what is left of the path of its file, with dots. -/
theorem moduleName_eq_ok_iff {front : List String} {last name : String}
    (h : (Path.ofText path).names = front ++ [last]) :
    moduleName folders path = .ok name ↔ ∃ stem rest, Path.Stem last stem ∧
      Strips (folders.map partsOf) (Path.parts ⟨(Path.ofText path).root, front ++ [stem]⟩) rest ∧
      name = ".".intercalate rest := by
  have hstem : (Path.ofText path).withoutSuffix? =
      some ⟨(Path.ofText path).root, front ++ [(Path.cutSuffix last).1]⟩ := by
    rw [Path.withoutSuffix?, Path.lastName?, h, List.getLast?_concat, Option.map_some,
      List.dropLast_concat]
  rw [moduleName, hstem]
  constructor
  · intro hname
    exact ⟨_, _, Path.stem_iff.mpr rfl, strips_iff.mpr rfl, (Except.ok.inj hname).symm⟩
  · rintro ⟨stem, rest, hcut, hrest, rfl⟩
    rw [Path.stem_iff.mp hcut] at hrest
    rw [strips_iff.mp hrest]
    rfl

theorem moduleName_eq_ok {front : List String} {last : String}
    (h : (Path.ofText path).names = front ++ [last]) (folders : List String) :
    ∃ stem rest, Path.Stem last stem ∧
      Strips (folders.map partsOf) (Path.parts ⟨(Path.ofText path).root, front ++ [stem]⟩) rest ∧
      moduleName folders path = .ok (".".intercalate rest) := by
  have hcut : Path.Stem last (Path.cutSuffix last).1 := Path.stem_iff.mpr rfl
  refine ⟨_, _, hcut, strips_iff.mpr rfl, ?_⟩
  exact (moduleName_eq_ok_iff h).mpr ⟨_, _, hcut, strips_iff.mpr rfl, rfl⟩

/-- Lists of the same folders: in any order, repeated, and with dots that do not count. -/
def SameFolders (folders folders' : List String) : Prop :=
  (∀ f ∈ folders, ∃ g ∈ folders', Relation.EqvGen Path.Dotted f g) ∧
    ∀ g ∈ folders', ∃ f ∈ folders, Relation.EqvGen Path.Dotted f g

theorem SameFolders.mem_iff {folders' : List String} (h : SameFolders folders folders')
    (parts : List String) : parts ∈ folders.map partsOf ↔ parts ∈ folders'.map partsOf := by
  rw [List.mem_map, List.mem_map]
  constructor
  · rintro ⟨f, hf, rfl⟩
    obtain ⟨g, hg, hsame⟩ := h.1 f hf
    exact ⟨g, hg, congrArg Path.parts (Path.ofText_of_respelled hsame).symm⟩
  · rintro ⟨g, hg, rfl⟩
    obtain ⟨f, hf, hsame⟩ := h.2 g hg
    exact ⟨f, hf, congrArg Path.parts (Path.ofText_of_respelled hsame)⟩

theorem moduleName_congr {folders' : List String} (h : SameFolders folders folders')
    (path : String) : moduleName folders path = moduleName folders' path := by
  unfold moduleName
  cases (Path.ofText path).withoutSuffix? with
  | none => rfl
  | some stem =>
      dsimp only
      rw [show enclosing? (folders.map fun f => (Path.ofText f).parts) stem.parts = _ from
        enclosing?_congr h.mem_iff]
      rfl

/-! ## Files below a folder -/

def fileBelow (folder : String) (components : List String) : Path :=
  (Path.ofText folder).join (Path.ofText ("/".intercalate components ++ ".elm"))

/-- A module with these components can stand below a folder, and no longer folder is on the way to
its file. -/
structure IsReached (folders : List String) (folder : String) (components : List String) :
    Prop where
  ne_nil : components ≠ []
  clean : ∀ c ∈ components, c ≠ "" ∧ '/' ∉ c.toList ∧ '.' ∉ c.toList
  longest : ∀ other ∈ folders, IsAbove (partsOf other) (partsOf folder ++ components) →
    (partsOf other).length ≤ (partsOf folder).length

theorem isPlain_of_clean {c : String} (h : c ≠ "" ∧ '/' ∉ c.toList ∧ '.' ∉ c.toList) :
    Path.IsPlain c := by
  obtain ⟨hne, hslash, hdot⟩ := h
  have hname : c ≠ "." := by
    rintro rfl
    exact hdot (by decide)
  refine ⟨?_, hslash⟩
  rw [Path.isName, Bool.and_eq_true, bne_iff_ne, bne_iff_ne]
  exact ⟨hne, hname⟩

theorem isPlain_append_suffix {c : String} (h : '/' ∉ c.toList) : Path.IsPlain (c ++ ".elm") := by
  have hlong : 4 ≤ (c ++ ".elm").length := by
    rw [String.length_append]
    exact Nat.le_add_left 4 c.length
  have hshort : ∀ s : String, s.length < 4 → c ++ ".elm" ≠ s := by
    rintro s hs rfl
    omega
  refine ⟨?_, ?_⟩
  · rw [Path.isName, Bool.and_eq_true, bne_iff_ne, bne_iff_ne]
    exact ⟨hshort "" (by decide), hshort "." (by decide)⟩
  · rw [String.toList_append, List.mem_append, not_or]
    exact ⟨h, by decide⟩

theorem intercalate_concat_append (front : List String) (last suffix : String) :
    "/".intercalate (front ++ [last]) ++ suffix =
      "/".intercalate (front ++ [last ++ suffix]) := by
  induction front with
  | nil => rfl
  | cons first rest ih =>
      cases rest with
      | nil =>
          simp only [List.cons_append, List.nil_append, Path.intercalate_cons_cons] at ih ⊢
          rw [String.append_assoc, ih]
      | cons next rest =>
          simp only [List.cons_append, Path.intercalate_cons_cons] at ih ⊢
          rw [String.append_assoc, ih]

theorem slashes_file {front : List String} {last : String}
    (h : ∀ name ∈ front ++ [last ++ ".elm"], Path.IsPlain name) :
    Path.slashes ("/".intercalate (front ++ [last]) ++ ".elm") = 0 := by
  rw [intercalate_concat_append]
  exact Path.slashes_intercalate h

theorem fileBelow_eq {front : List String} {last : String}
    (h : ∀ name ∈ front ++ [last ++ ".elm"], Path.IsPlain name) (folder : String) :
    fileBelow folder (front ++ [last]) =
      ⟨(Path.ofText folder).root, (Path.ofText folder).names ++ front ++ [last ++ ".elm"]⟩ := by
  have hnames := Path.names_ofText_intercalate h
  rw [← intercalate_concat_append] at hnames
  rw [fileBelow, Path.join, Path.root_ofText ("/".intercalate _ ++ ".elm"), slashes_file h, hnames,
    List.append_assoc]
  rfl

/-- The components of a module are a front and a last one, all of them plain. -/
theorem IsReached.exists_concat (h : IsReached folders folder components) :
    ∃ front last, components = front ++ [last] ∧
      ∀ name ∈ front ++ [last ++ ".elm"], Path.IsPlain name := by
  have hsplit := List.dropLast_append_getLast h.ne_nil
  refine ⟨_, _, hsplit.symm, fun name hname => ?_⟩
  rcases List.mem_append.mp hname with hfront | hlast
  · exact isPlain_of_clean (h.clean name (List.dropLast_subset _ hfront))
  · obtain rfl := List.mem_singleton.mp hlast
    exact isPlain_append_suffix (h.clean _ (List.getLast_mem h.ne_nil)).2.1

theorem stem_append_suffix {last : String} (h : last ≠ "") : Path.Stem (last ++ ".elm") last := by
  have htext : last ++ ".elm" = String.ofList (last.toList ++ '.' :: ['e', 'l', 'm']) := by
    apply String.toList_inj.mp
    rw [String.toList_append]
    exact String.toList_ofList.symm
  have hcut : Path.Stem (String.ofList (last.toList ++ '.' :: ['e', 'l', 'm']))
      (String.ofList last.toList) :=
    .cut (String.toList_eq_nil_iff.not.mpr h) (List.cons_ne_nil _ _) (by decide)
  rwa [← htext, String.ofList_toList] at hcut

theorem IsReached.moduleName_eq (h : IsReached folders folder components)
    (hin : folder ∈ folders) (hpath : Path.ofText path = fileBelow folder components) :
    moduleName folders path = .ok (".".intercalate components) := by
  obtain ⟨front, last, rfl, hplain⟩ := h.exists_concat
  rw [fileBelow_eq hplain] at hpath
  have hnames := congrArg Path.names hpath
  have hroot : (Path.ofText path).root = (Path.ofText folder).root := by rw [hpath]
  refine (moduleName_eq_ok_iff hnames).mpr ⟨last, _, stem_append_suffix ?_, ?_, rfl⟩
  · exact (h.clean last (by simp)).1
  · rw [hroot, List.append_assoc, Path.parts_append _ _ (front ++ [last])]
    refine .folder (List.mem_map_of_mem hin) h.ne_nil fun other hother => ?_
    obtain ⟨f, hf, rfl⟩ := List.mem_map.mp hother
    exact h.longest f hf

theorem IsReached.ofText_text (h : IsReached folders folder components) :
    Path.ofText (fileBelow folder components).text = fileBelow folder components := by
  obtain ⟨front, last, rfl, hplain⟩ := h.exists_concat
  rw [fileBelow_eq hplain]
  refine Path.ofText_text (by simp) fun name hname => ?_
  rw [List.append_assoc] at hname
  rcases List.mem_append.mp hname with hfolder | hfile
  · exact Path.isPlain_of_mem_ofText hfolder
  · exact hplain name hfile

/-- The file can also be written behind the folder, with a slash between them. -/
theorem IsReached.ofText_append (h : IsReached folders folder components)
    (hfolder : folder ∉ ["", "/", "//"]) :
    Path.ofText (folder ++ "/" ++ ("/".intercalate components ++ ".elm")) =
      fileBelow folder components := by
  obtain ⟨front, last, rfl, hplain⟩ := h.exists_concat
  exact Path.ofText_join hfolder (slashes_file hplain)

theorem IsReached.intercalate_inj {components' : List String}
    (h : IsReached folders folder components) (h' : IsReached folders folder components')
    (heq : ".".intercalate components = ".".intercalate components') :
    components = components' :=
  Text.intercalate_injOn rfl h.ne_nil h'.ne_nil (fun c hc => (h.clean c hc).2.2)
    (fun c hc => (h'.clean c hc).2.2) heq

/-- **The name of a module is told from its file, and its file from the name.**  Every path with a
last name has a module name: what is left without the suffix and without the longest folder above,
with dots.  Lists of the same folders give the same names.  Below each folder, a file stands for
the module that it is called after, unless a longer folder is on the way; so there, different
modules have different names.  The file may be written behind the folder and a slash, except where
the folder is empty or only one or two slashes: this slash would say where the path starts. -/
theorem moduleName_inverts (folders : List String) :
    (∀ path front last, (Path.ofText path).names = front ++ [last] →
      ∃ stem rest, Path.Stem last stem ∧
        Strips (folders.map partsOf)
          (Path.parts ⟨(Path.ofText path).root, front ++ [stem]⟩) rest ∧
        moduleName folders path = .ok (".".intercalate rest)) ∧
    (∀ folders', SameFolders folders folders' →
      ∀ path, moduleName folders path = moduleName folders' path) ∧
    ∀ folder ∈ folders, ∀ components, IsReached folders folder components →
      (∀ path, Path.ofText path = fileBelow folder components →
        moduleName folders path = .ok (".".intercalate components)) ∧
      Path.ofText (fileBelow folder components).text = fileBelow folder components ∧
      (folder ∉ ["", "/", "//"] →
        Path.ofText (folder ++ "/" ++ ("/".intercalate components ++ ".elm")) =
          fileBelow folder components) ∧
      ∀ components', IsReached folders folder components' → components ≠ components' →
        moduleName folders (fileBelow folder components).text ≠
          moduleName folders (fileBelow folder components').text := by
  refine ⟨?_, fun _ hsame path => moduleName_congr hsame path, ?_⟩
  · intro path front last hnames
    exact moduleName_eq_ok hnames folders
  · intro folder hin components h
    refine ⟨fun path => h.moduleName_eq hin, h.ofText_text, h.ofText_append, ?_⟩
    intro components' h' hne heq
    rw [h.moduleName_eq hin h.ofText_text, h'.moduleName_eq hin h'.ofText_text] at heq
    exact hne (h.intercalate_inj h' (Except.ok.inj heq))

/-- Nested folders in two spellings.  A file below the longer one is named from there, nothing
stands in front of a file below the empty folder, and what is no module has a name as well. -/
theorem moduleName_inverts_sample :
    let folders := ["src", "lib/src", ""]
    let again := ["./lib/src", "", "src/.", "lib/./src"]
    moduleName folders "lib/src/Json/Decode.elm" = .ok "Json.Decode" ∧
      moduleName again "lib/src/Json/Decode.elm" = .ok "Json.Decode" ∧
      moduleName again "lib/Other.elm" = .ok "lib.Other" ∧
      moduleName again "lib/src/Json/Decode.elm" ≠ moduleName again "lib/src/Main.elm" ∧
      ∃ stem rest, Path.Stem "notes.v1.md" stem ∧
        Strips (folders.map partsOf) ["docs", stem] rest ∧
        moduleName folders "docs/notes.v1.md" = .ok (".".intercalate rest) := by
  intro folders again
  obtain ⟨hall, hsame, hbelow⟩ := moduleName_inverts folders
  have hsource : Path.Dotted "src" "src/." := .back ⟨'s', by decide, by decide⟩
  have hfront : Path.Dotted "lib/src" "./lib/src" := .front (by decide)
  have hmiddle : Path.Dotted "lib/src" "lib/./src" :=
    @Path.Dotted.between "lib" "src" (.inr (by decide))
  have hfolders : SameFolders folders again := by
    constructor
    · simp only [folders, List.forall_mem_cons]
      exact ⟨⟨"src/.", by decide, .rel _ _ hsource⟩, ⟨"./lib/src", by decide, .rel _ _ hfront⟩,
        ⟨"", by decide, .refl _⟩, nofun⟩
    · simp only [again, List.forall_mem_cons]
      exact ⟨⟨"lib/src", by decide, .rel _ _ hfront⟩, ⟨"", by decide, .refl _⟩,
        ⟨"src", by decide, .rel _ _ hsource⟩, ⟨"lib/src", by decide, .rel _ _ hmiddle⟩, nofun⟩
  have hdecode : IsReached folders "lib/src" ["Json", "Decode"] :=
    ⟨by decide, by decide, by decide⟩
  have hmain : IsReached folders "lib/src" ["Main"] := ⟨by decide, by decide, by decide⟩
  have hother : IsReached folders "" ["lib", "Other"] := ⟨by decide, by decide, by decide⟩
  have hbehindText : "lib/src" ++ "/" ++ ("/".intercalate ["Json", "Decode"] ++ ".elm") =
      "lib/src/Json/Decode.elm" := by
    decide +kernel
  have hdecodeText : (fileBelow "lib/src" ["Json", "Decode"]).text = "lib/src/Json/Decode.elm" := by
    decide +kernel
  have hmainText : (fileBelow "lib/src" ["Main"]).text = "lib/src/Main.elm" := by decide +kernel
  have hotherText : (fileBelow "" ["lib", "Other"]).text = "lib/Other.elm" := by decide +kernel
  obtain ⟨hname, -, hbehind, hdifferent⟩ := hbelow "lib/src" (by decide) _ hdecode
  obtain ⟨hname', hback', -, -⟩ := hbelow "" (by decide) _ hother
  have hne := hdifferent _ hmain (by decide)
  rw [hdecodeText, hmainText] at hne
  rw [hotherText] at hback'
  have hfile := hbehindText ▸ hname _ (hbehind (by decide))
  simp only [← hsame again hfolders]
  refine ⟨hfile, hfile, hname' _ hback', hne, ?_⟩
  exact hall "docs/notes.v1.md" ["docs"] "notes.v1.md" (by decide)

end Checkout
end SignatureSearch
