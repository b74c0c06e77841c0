/-
# `Proofs.Path` — paths and their texts

A text is read as a path slash by slash.  What stands between two slashes is a
name if it is neither empty nor a single dot, and the slashes in front say where
the path starts.  So the names of two texts with a slash between them stand one
after the other (`names_ofText_append`), and

    ofText_text       a path with plain names is read back from its text
    ofText_of_dotted  a dot with its slash, where a name could stand, does not
                      count
    ofText_join       a relative text behind a slash leads on from the path in
                      front of it

The last one fails for the empty text and for one or two slashes alone: there
the slash between is one of those in front.

Two dots are a name like any other until a path is resolved.  Then none is left
(`isResolved_resolve`), wherever they stood; names without them are put behind
one another (`foldl_climb_of_notMem`).
-/
import Mathlib.Data.List.Basic
import Mathlib.Data.List.Infix
import Mathlib.Data.List.TakeWhile
import Mathlib.Logic.Relation
import SignatureSearch.Path

namespace SignatureSearch

/-! ## Parts between separators -/

namespace Text

variable {sep : Char} {cs : List Char}

theorem splitOn_ne_nil (sep : Char) (cs : List Char) : splitOn sep cs ≠ [] := by
  cases cs with
  | nil => exact List.cons_ne_nil _ _
  | cons c cs =>
      rw [splitOn]
      split
      · exact List.cons_ne_nil _ _
      · split <;> exact List.cons_ne_nil _ _

theorem notMem_of_mem_splitOn {part : List Char} (h : part ∈ splitOn sep cs) : sep ∉ part := by
  induction cs generalizing part with
  | nil =>
      obtain rfl := List.mem_singleton.mp h
      exact List.not_mem_nil
  | cons c cs ih =>
      rw [splitOn] at h
      split at h
      · rcases List.mem_cons.mp h with rfl | hrest
        · exact List.not_mem_nil
        · exact ih hrest
      · rename_i hc
        split at h
        · obtain rfl := List.mem_singleton.mp h
          simpa using Ne.symm hc
        · rename_i first parts hparts
          rcases List.mem_cons.mp h with rfl | hrest
          · rw [List.mem_cons, not_or]
            exact ⟨Ne.symm hc, ih (hparts ▸ List.mem_cons_self)⟩
          · exact ih (hparts ▸ List.mem_cons_of_mem _ hrest)

theorem mem_of_mem_splitOn {part : List Char} {c : Char} (h : part ∈ splitOn sep cs)
    (hc : c ∈ part) : c ∈ cs := by
  induction cs generalizing part with
  | nil =>
      obtain rfl := List.mem_singleton.mp h
      exact hc
  | cons d cs ih =>
      rw [splitOn] at h
      split at h
      · rcases List.mem_cons.mp h with rfl | hrest
        · exact absurd hc List.not_mem_nil
        · exact List.mem_cons_of_mem _ (ih hrest hc)
      · split at h
        · obtain rfl := List.mem_singleton.mp h
          exact List.mem_cons.mpr (Or.inl (List.mem_singleton.mp hc))
        · rename_i first parts hparts
          rcases List.mem_cons.mp h with rfl | hrest
          · rcases List.mem_cons.mp hc with rfl | hfirst
            · exact List.mem_cons_self
            · exact List.mem_cons_of_mem _ (ih (hparts ▸ List.mem_cons_self) hfirst)
          · exact List.mem_cons_of_mem _ (ih (hparts ▸ List.mem_cons_of_mem _ hrest) hc)

theorem splitOn_of_notMem (h : sep ∉ cs) : splitOn sep cs = [cs] := by
  induction cs with
  | nil => rfl
  | cons c cs ih =>
      rw [List.mem_cons, not_or] at h
      rw [splitOn, if_neg (Ne.symm h.1), ih h.2]

theorem splitOn_append (sep : Char) (cs rest : List Char) :
    splitOn sep (cs ++ sep :: rest) = splitOn sep cs ++ splitOn sep rest := by
  induction cs with
  | nil => simp [splitOn]
  | cons c cs ih =>
      rw [List.cons_append, splitOn, splitOn, ih]
      by_cases hc : c = sep
      · rw [if_pos hc, if_pos hc, List.cons_append]
      · rw [if_neg hc, if_neg hc]
        cases hparts : splitOn sep cs with
        | nil => exact absurd hparts (splitOn_ne_nil sep cs)
        | cons first parts => rfl

theorem intercalate_splitOn (sep : Char) (cs : List Char) :
    [sep].intercalate (splitOn sep cs) = cs := by
  induction cs with
  | nil => rfl
  | cons c cs ih =>
      rw [splitOn]
      cases hparts : splitOn sep cs with
      | nil => exact absurd hparts (splitOn_ne_nil sep cs)
      | cons first parts =>
          rw [hparts] at ih
          by_cases hc : c = sep
          · rw [if_pos hc, List.intercalate_cons_cons, ih, hc]
            rfl
          · rw [if_neg hc]
            cases parts with
            | nil =>
                rw [List.intercalate_singleton] at ih ⊢
                rw [ih]
            | cons next parts =>
                rw [List.intercalate_cons_cons] at ih ⊢
                rw [← ih]
                rfl

theorem splitOn_intercalate {parts : List (List Char)} (hne : parts ≠ [])
    (h : ∀ part ∈ parts, sep ∉ part) : splitOn sep ([sep].intercalate parts) = parts := by
  induction parts with
  | nil => exact absurd rfl hne
  | cons part rest ih =>
      rw [List.forall_mem_cons] at h
      cases rest with
      | nil => simpa using splitOn_of_notMem h.1
      | cons next rest =>
          rw [List.intercalate_cons_cons, List.append_assoc, List.singleton_append,
            splitOn_append, splitOn_of_notMem h.1, ih (List.cons_ne_nil _ _) h.2]
          rfl

/-- Texts without a separator in them are told from the text that they are put together to. -/
theorem intercalate_injOn {s : String} (hs : s.toList = [sep]) {parts parts' : List String}
    (hne : parts ≠ []) (hne' : parts' ≠ []) (h : ∀ part ∈ parts, sep ∉ part.toList)
    (h' : ∀ part ∈ parts', sep ∉ part.toList)
    (heq : s.intercalate parts = s.intercalate parts') : parts = parts' := by
  have hback : ∀ parts : List String, parts ≠ [] → (∀ part ∈ parts, sep ∉ part.toList) →
      splitOn sep (s.intercalate parts).toList = parts.map String.toList := by
    intro parts hne h
    rw [String.toList_intercalate, hs]
    refine splitOn_intercalate (List.map_eq_nil_iff.not.mpr hne) fun part hpart => ?_
    obtain ⟨name, hname, rfl⟩ := List.mem_map.mp hpart
    exact h name hname
  have hmap : parts.map String.toList = parts'.map String.toList := by
    rw [← hback parts hne h, heq, hback parts' hne' h']
  exact List.map_injective_iff.mpr (fun _ _ => String.toList_inj.mp) hmap

end Text

namespace Path

/-! ## Names -/

/-- A name that can be told from the text of a path. -/
def IsPlain (name : String) : Prop :=
  isName name = true ∧ '/' ∉ name.toList

instance (name : String) : Decidable (IsPlain name) :=
  inferInstanceAs (Decidable (_ ∧ _))

theorem isPlain_of_mem_ofText {s name : String} (h : name ∈ (ofText s).names) : IsPlain name := by
  obtain ⟨hmem, hname⟩ := List.mem_filter.mp h
  obtain ⟨part, hpart, rfl⟩ := List.mem_map.mp hmem
  refine ⟨hname, ?_⟩
  rw [String.toList_ofList]
  exact Text.notMem_of_mem_splitOn hpart

theorem names_ofText_append (a b : String) :
    (ofText (a ++ "/" ++ b)).names = (ofText a).names ++ (ofText b).names := by
  have htext : (a ++ "/" ++ b).toList = a.toList ++ '/' :: b.toList := by
    rw [String.toList_append, String.toList_append, List.append_assoc]
    rfl
  unfold ofText
  dsimp only
  rw [htext, Text.splitOn_append, List.map_append, List.filter_append]

theorem names_ofText_of_isPlain {name : String} (h : IsPlain name) :
    (ofText name).names = [name] := by
  unfold ofText
  dsimp only
  rw [Text.splitOn_of_notMem h.2, List.map_singleton, String.ofList_toList]
  exact List.filter_eq_self.mpr fun _ hname => List.mem_singleton.mp hname ▸ h.1

theorem intercalate_cons_cons (a b : String) (rest : List String) :
    "/".intercalate (a :: b :: rest) = a ++ "/" ++ "/".intercalate (b :: rest) := by
  apply String.toList_inj.mp
  simp only [String.toList_intercalate, String.toList_append, List.map_cons,
    List.intercalate_cons_cons, List.append_assoc]

/-- The names of a relative path are told from its text, also where it leads nowhere. -/
theorem names_ofText_intercalate {names : List String} (h : ∀ name ∈ names, IsPlain name) :
    (ofText ("/".intercalate names)).names = names := by
  induction names with
  | nil => rfl
  | cons name rest ih =>
      rw [List.forall_mem_cons] at h
      cases rest with
      | nil => exact names_ofText_of_isPlain h.1
      | cons next rest =>
          rw [intercalate_cons_cons, names_ofText_append, names_ofText_of_isPlain h.1, ih h.2]
          rfl

/-! ## Slashes in front -/

def slashes (s : String) : Nat :=
  (s.toList.takeWhile (· == '/')).length

def Root.ofSlashes : Nat → Root
  | 0 => .none
  | 2 => .doubleSlash
  | _ => .slash

theorem root_ofText (s : String) : (ofText s).root = .ofSlashes (slashes s) := rfl

theorem slashes_of_head? {s : String} (h : s.toList.head? ≠ some '/') : slashes s = 0 := by
  unfold slashes
  cases hs : s.toList with
  | nil => rfl
  | cons c cs =>
      rw [hs, List.head?_cons, ne_eq, Option.some.injEq] at h
      rw [List.takeWhile_cons_of_neg (by simpa using h), List.length_nil]

theorem slashes_append_of_exists {a : String} (h : ∃ c ∈ a.toList, c ≠ '/') (b : String) :
    slashes (a ++ b) = slashes a := by
  have hshort : ¬ (a.toList.takeWhile (· == '/')).length = a.toList.length := by
    intro hlength
    obtain ⟨c, hc, hne⟩ := h
    have hall := (List.takeWhile_prefix _).eq_of_length hlength
    have hin : c ∈ a.toList.takeWhile (· == '/') := hall.symm ▸ hc
    have hslash := List.mem_takeWhile_imp hin
    exact hne (beq_iff_eq.mp hslash)
  rw [slashes, String.toList_append, List.takeWhile_append, if_neg hshort, slashes]

theorem slashes_append_of_forall {a : String} (h : ∀ c ∈ a.toList, c = '/') (b : String) :
    slashes (a ++ b) = a.length + slashes b := by
  rw [slashes, String.toList_append,
    List.takeWhile_append_of_pos fun c hc => beq_iff_eq.mpr (h c hc), List.length_append,
    String.length_toList, slashes]

theorem slashes_slash (b : String) : slashes ("/" ++ b) = slashes b + 1 := by
  have hfirst : ("/" ++ b).toList = '/' :: b.toList := String.toList_append
  rw [slashes, hfirst, List.takeWhile_cons_of_pos (by simp), List.length_cons, slashes]

theorem slashes_of_forall {a : String} (h : ∀ c ∈ a.toList, c = '/') : slashes a = a.length := by
  have hall := slashes_append_of_forall h ""
  rwa [String.append_empty] at hall

theorem IsPlain.exists_ne {name : String} (h : IsPlain name) : ∃ c ∈ name.toList, c ≠ '/' := by
  obtain ⟨hname, hslash⟩ := h
  cases hchars : name.toList with
  | nil =>
      obtain rfl := String.toList_eq_nil_iff.mp hchars
      exact absurd hname (by decide)
  | cons c cs =>
      rw [hchars, List.mem_cons, not_or] at hslash
      exact ⟨c, List.mem_cons_self, Ne.symm hslash.1⟩

theorem IsPlain.slashes_eq {name : String} (h : IsPlain name) : slashes name = 0 := by
  refine slashes_of_head? fun hhead => ?_
  exact h.2 (List.mem_of_mem_head? hhead)

theorem slashes_intercalate {names : List String} (h : ∀ name ∈ names, IsPlain name) :
    slashes ("/".intercalate names) = 0 := by
  cases names with
  | nil => rfl
  | cons name rest =>
      have hname := h name List.mem_cons_self
      cases rest with
      | nil => exact hname.slashes_eq
      | cons next rest =>
          rw [intercalate_cons_cons, String.append_assoc, slashes_append_of_exists hname.exists_ne]
          exact hname.slashes_eq

/-! ## Texts of the same path -/

theorem ofText_eq {s : String} {p : Path} (hroot : .ofSlashes (slashes s) = p.root)
    (hnames : (ofText s).names = p.names) : ofText s = p :=
  congrArg₂ Path.mk hroot hnames

/-- A path with plain names is read back from its text, unless it leads nowhere. -/
theorem ofText_text {p : Path} (hne : p.names ≠ []) (h : ∀ name ∈ p.names, IsPlain name) :
    ofText p.text = p := by
  obtain ⟨root, names⟩ := p
  have hback := names_ofText_intercalate h
  have hfront := slashes_intercalate h
  cases root with
  | none =>
      have htext : text ⟨.none, names⟩ = "/".intercalate names := by
        cases names with
        | nil => exact absurd rfl hne
        | cons name rest => exact String.empty_append
      rw [htext]
      exact ofText_eq (by rw [hfront]; rfl) hback
  | slash =>
      show ofText ("/" ++ "/".intercalate names) = _
      refine ofText_eq ?_ ((names_ofText_append "" _).trans hback)
      rw [slashes_slash, hfront]
      rfl
  | doubleSlash =>
      show ofText ("/" ++ "/" ++ "/".intercalate names) = _
      refine ofText_eq ?_ ((names_ofText_append "/" _).trans hback)
      rw [String.append_assoc, slashes_slash, slashes_slash, hfront]
      rfl

/-- Two texts of which the second one has a dot more, with its slash: in front of everything,
between two names, or at the end.  The slashes in front stay as many as they are. -/
inductive Dotted : String → String → Prop
  | front {s : String} : s.toList.head? ≠ some '/' → Dotted s ("./" ++ s)
  | between {a b : String} : (∃ c ∈ a.toList, c ≠ '/') ∨ b.toList.head? ≠ some '/' →
      Dotted (a ++ "/" ++ b) (a ++ "/./" ++ b)
  | back {a : String} : (∃ c ∈ a.toList, c ≠ '/') → Dotted a (a ++ "/.")

theorem names_ofText_dot : (ofText ".").names = [] := by decide

theorem ofText_of_dotted {s t : String} (h : Dotted s t) : ofText s = ofText t := by
  cases h with
  | front hs =>
      refine ofText_eq ?_ ?_
      · rw [root_ofText, slashes_of_head? hs, slashes_append_of_exists ⟨'.', by decide, by decide⟩]
        rfl
      · rw [show "./" = "." ++ "/" from rfl, names_ofText_append, names_ofText_dot]
        rfl
  | @between a b h =>
      have hmiddle : a ++ "/./" ++ b = a ++ "/" ++ "." ++ "/" ++ b := by
        simp only [String.append_assoc]
        rfl
      rw [hmiddle]
      refine ofText_eq ?_ ?_
      · rw [root_ofText]
        simp only [String.append_assoc]
        by_cases ha : ∃ c ∈ a.toList, c ≠ '/'
        · rw [slashes_append_of_exists ha, slashes_append_of_exists ha]
        · have hall : ∀ c ∈ a.toList, c = '/' := by simpa using ha
          have hb := slashes_of_head? (h.resolve_left ha)
          have hdot : slashes ("." ++ ("/" ++ b)) = slashes "." :=
            slashes_append_of_exists ⟨'.', by decide, by decide⟩ _
          rw [slashes_append_of_forall hall, slashes_append_of_forall hall, slashes_slash,
            slashes_slash, hb, hdot]
          rfl
      · rw [names_ofText_append, names_ofText_append, names_ofText_append, names_ofText_dot,
          List.append_nil]
  | @back a h =>
      refine ofText_eq ?_ ?_
      · rw [root_ofText, slashes_append_of_exists h]
      · rw [show "/." = "/" ++ "." from rfl, ← String.append_assoc, names_ofText_append,
          names_ofText_dot, List.append_nil]

theorem ofText_of_respelled {s t : String} (h : Relation.EqvGen Dotted s t) :
    ofText s = ofText t := by
  induction h with
  | rel _ _ h => exact ofText_of_dotted h
  | refl _ => rfl
  | symm _ _ _ ih => exact ih.symm
  | trans _ _ _ _ _ ih₁ ih₂ => exact ih₁.trans ih₂

/-- A relative text behind a slash leads on from what stands before it. -/
theorem ofText_join {a b : String} (ha : a ∉ ["", "/", "//"]) (hb : slashes b = 0) :
    ofText (a ++ "/" ++ b) = (ofText a).join (ofText b) := by
  have hjoin : (ofText a).join (ofText b) =
      ⟨(ofText a).root, (ofText a).names ++ (ofText b).names⟩ := by
    rw [join, root_ofText b, hb]
    rfl
  rw [hjoin]
  refine ofText_eq ?_ (names_ofText_append a b)
  rw [root_ofText, String.append_assoc]
  by_cases hother : ∃ c ∈ a.toList, c ≠ '/'
  · rw [slashes_append_of_exists hother]
  · -- three slashes and more are one
    have hall : ∀ c ∈ a.toList, c = '/' := by simpa using hother
    have hchars : a.toList = List.replicate a.length '/' :=
      List.eq_replicate_iff.mpr ⟨String.length_toList, hall⟩
    have hmany : 3 ≤ a.length := by
      by_contra hfew
      refine ha ?_
      obtain hn | hn | hn : a.length = 0 ∨ a.length = 1 ∨ a.length = 2 := by omega
      all_goals
        rw [hn] at hchars
        simp [← String.toList_inj, hchars]
    obtain ⟨n, hn⟩ := Nat.exists_eq_add_of_le' hmany
    rw [slashes_append_of_forall hall, slashes_slash, hb, slashes_of_forall hall, hn]
    rfl

/-! ## Names that lead back -/

theorem mem_of_mem_foldl_climb {names start : List String} {name : String}
    (h : name ∈ names.foldl climb start) : name ∈ start ∨ name ∈ names := by
  induction names generalizing start with
  | nil => exact Or.inl h
  | cons first rest ih =>
      rcases ih h with hstart | hrest
      · unfold climb at hstart
        split at hstart
        · exact Or.inl (List.mem_of_mem_dropLast hstart)
        · rcases List.mem_append.mp hstart with hstart | hfirst
          · exact Or.inl hstart
          · exact Or.inr (List.mem_singleton.mp hfirst ▸ List.mem_cons_self)
      · exact Or.inr (List.mem_cons_of_mem _ hrest)

theorem dots_notMem_foldl_climb {names start : List String} (h : ".." ∉ start) :
    ".." ∉ names.foldl climb start := by
  induction names generalizing start with
  | nil => exact h
  | cons name rest ih =>
      refine ih ?_
      unfold climb
      split
      · exact fun hmem => h (List.mem_of_mem_dropLast hmem)
      · rename_i hname
        rw [List.mem_append, not_or]
        exact ⟨h, fun hmem => hname (List.mem_singleton.mp hmem).symm⟩

theorem foldl_climb_of_notMem {names : List String} (h : ".." ∉ names) (start : List String) :
    names.foldl climb start = start ++ names := by
  induction names generalizing start with
  | nil => exact (List.append_nil start).symm
  | cons name rest ih =>
      rw [List.mem_cons, not_or] at h
      have hname : climb start name = start ++ [name] := if_neg (Ne.symm h.1)
      rw [List.foldl_cons, hname, ih h.2, List.append_assoc]
      rfl

/-- An absolute path in which every name can be told from the text and none leads back. -/
structure IsResolved (p : Path) : Prop where
  root_eq : p.root = .slash
  isPlain : ∀ name ∈ p.names, IsPlain name
  dots_notMem : ".." ∉ p.names

theorem isResolved_resolve {p : Path} (h : ∀ name ∈ p.names, IsPlain name) :
    p.resolve.IsResolved where
  root_eq := rfl
  isPlain name hname := by
    rcases mem_of_mem_foldl_climb hname with hnone | hmem
    · exact absurd hnone List.not_mem_nil
    · exact h name hmem
  dots_notMem := dots_notMem_foldl_climb List.not_mem_nil

theorem isPlain_of_mem_resolve {s name : String} (h : name ∈ (ofText s).resolve.names) :
    IsPlain name :=
  (isResolved_resolve fun _ hname => isPlain_of_mem_ofText hname).isPlain name h

/-- A path strictly below another one: it goes on where the other one ends. -/
def Extends (p q : Path) : Prop :=
  p.root = q.root ∧ ∃ rest, rest ≠ [] ∧ p.names = q.names ++ rest

theorem isBelow_iff {p q : Path} : p.isBelow q = true ↔ p.Extends q := by
  unfold isBelow
  rw [Bool.and_eq_true, Bool.and_eq_true, decide_eq_true_eq, decide_eq_true_eq,
    List.isPrefixOf_iff_prefix]
  constructor
  · rintro ⟨⟨hroot, rest, hnames⟩, hlength⟩
    refine ⟨hroot, rest, ?_, hnames.symm⟩
    rintro rfl
    rw [← hnames, List.append_nil] at hlength
    exact Nat.lt_irrefl _ hlength
  · rintro ⟨hroot, rest, hne, hnames⟩
    refine ⟨⟨hroot, rest, hnames.symm⟩, ?_⟩
    rw [hnames, List.length_append]
    exact Nat.lt_add_of_pos_right (List.length_pos_iff.mpr hne)

/-! ## Paths from one another -/

/-- The names of a relative path, slash by slash, are told from its text, also where it leads
nowhere. -/
theorem names_ofText_text_mk {names : List String} (h : ∀ name ∈ names, IsPlain name) :
    (ofText (text ⟨.none, names⟩)).names = names := by
  cases names with
  | nil => rfl
  | cons name rest =>
      exact congrArg Path.names (@ofText_text ⟨.none, name :: rest⟩ (List.cons_ne_nil _ _) h)

theorem join_of_root_eq_none {q r : Path} (h : r.root = .none) :
    q.join r = ⟨q.root, q.names ++ r.names⟩ := by
  rw [join, h]

theorem join_of_root_ne_none {q r : Path} (h : r.root ≠ .none) : q.join r = r := by
  unfold join
  split
  · rename_i hroot
    exact absurd hroot h
  · rfl

theorem relativeTo?_eq_some_iff {p q r : Path} :
    p.relativeTo? q = some r ↔ r.root = .none ∧ q.join r = p := by
  unfold relativeTo?
  constructor
  · intro h
    split at h
    · rename_i hbelow
      rw [Bool.and_eq_true, decide_eq_true_eq, List.isPrefixOf_iff_prefix] at hbelow
      obtain rfl := Option.some.inj h
      refine ⟨rfl, ?_⟩
      rw [join_of_root_eq_none rfl, ← hbelow.1]
      exact congrArg (Path.mk p.root) (List.prefix_iff_eq_append.mp hbelow.2)
    · cases h
  · rintro ⟨hroot, rfl⟩
    obtain ⟨root, names⟩ := r
    obtain rfl : root = .none := hroot
    rw [join_of_root_eq_none rfl, if_pos (by simp), List.drop_left]

theorem relativeTo?_join {q r : Path} (h : r.root = .none) : (q.join r).relativeTo? q = some r :=
  relativeTo?_eq_some_iff.mpr ⟨h, rfl⟩

theorem relativeTo?_eq_none_iff {p q : Path} :
    p.relativeTo? q = none ↔ ¬ (p.root = q.root ∧ q.names <+: p.names) := by
  simp [relativeTo?]

end Path
end SignatureSearch
