/-
# `Proofs.Text.FirstPlace` — where a text is cut

Readers of texts cut in two ways: at the first place at which something holds
(a pattern starts, a name stands alone, a top-level line ends), and at the end
of a maximal run of characters of one class.  Both are said here without the
functions that find them:

    FirstPlace Q cs before after    cs = before ++ after, `Q` holds there,
                                    and at no place further to the front
    MaximalRun p run rest           `run` is of class `p`, and `rest` does not
                                    start with a character of the class

`FirstPlace` is unique, and the two lemmas `firstPlace_nil_iff` and
`firstPlace_cons_iff` are what an induction over the text needs; with them
`cut` is the first place where its pattern starts (`cut_eq_some_iff`).
-/
import Mathlib.Data.List.Infix
import Mathlib.Data.List.TakeWhile
import SignatureSearch.Text.Search

namespace SignatureSearch.Text

/-! ## The first place at which something holds -/

/-- `before` and `after` are the two sides of the first place of `cs` at which `Q` holds. -/
structure FirstPlace (Q : List Char → List Char → Prop) (cs before after : List Char) : Prop where
  split : cs = before ++ after
  holds : Q before after
  first : ∀ b a, cs = b ++ a → Q b a → before.length ≤ b.length

theorem FirstPlace.unique {Q : List Char → List Char → Prop} {cs b a b' a' : List Char}
    (h : FirstPlace Q cs b a) (h' : FirstPlace Q cs b' a') : b = b' ∧ a = a' := by
  have hlen : b.length = b'.length :=
    Nat.le_antisymm (h.first b' a' h'.split h'.holds) (h'.first b a h.split h.holds)
  exact List.append_inj (h.split.symm.trans h'.split) hlen

theorem firstPlace_nil_iff {Q : List Char → List Char → Prop} {cs a : List Char} :
    FirstPlace Q cs [] a ↔ a = cs ∧ Q [] cs := by
  constructor
  · intro h
    have hcs : cs = a := h.split
    exact ⟨hcs.symm, hcs ▸ h.holds⟩
  · rintro ⟨rfl, hQ⟩
    exact ⟨rfl, hQ, fun _ _ _ _ => Nat.zero_le _⟩

/-- Past the front, the first place of a text is the first place of its tail. -/
theorem firstPlace_cons_iff {Q : List Char → List Char → Prop} {c d : Char}
    {cs b a : List Char} :
    FirstPlace Q (c :: cs) (d :: b) a ↔
      d = c ∧ ¬ Q [] (c :: cs) ∧ FirstPlace (fun b a => Q (c :: b) a) cs b a := by
  constructor
  · intro h
    obtain ⟨rfl, hcs⟩ := List.cons.inj h.split
    refine ⟨rfl, fun hQ => ?_, hcs, h.holds, fun b' a' hs hQ => ?_⟩
    · exact absurd (h.first [] _ rfl hQ) (by simp)
    · exact Nat.le_of_succ_le_succ (h.first (c :: b') a' (by rw [hs]; rfl) hQ)
  · rintro ⟨rfl, hno, hs, hQ, hfirst⟩
    refine ⟨by rw [hs]; rfl, hQ, fun b' a' hs' hQ' => ?_⟩
    cases b' with
    | nil =>
        obtain rfl : d :: cs = a' := hs'
        exact absurd hQ' hno
    | cons e b' =>
        obtain ⟨rfl, hcs⟩ := List.cons.inj hs'
        exact Nat.succ_le_succ (hfirst b' a' hcs hQ')

/-- Where `Q` does not look at what comes before, moving one character on changes nothing else. -/
theorem firstPlace_cons_after {P : List Char → Prop} {c : Char} {cs b a : List Char}
    (h : ¬ P (c :: cs)) :
    FirstPlace (fun _ a => P a) (c :: cs) (c :: b) a ↔ FirstPlace (fun _ a => P a) cs b a := by
  rw [firstPlace_cons_iff]
  exact ⟨fun h' => h'.2.2, fun h' => ⟨rfl, h, h'⟩⟩

/-! ## Cutting at a pattern -/

/-- The pattern stands in `cs` after `before`, and nowhere further to the front. -/
def FirstIn (pat cs before : List Char) : Prop :=
  ∃ after, FirstPlace (fun _ rest => pat <+: rest) cs before after

theorem isPrefixOf?_append (pat rest : List Char) :
    pat.isPrefixOf? (pat ++ rest) = some rest :=
  List.isPrefixOf?_eq_some_iff_append_eq.mpr rfl

theorem isPrefixOf?_eq_none_iff {pat cs : List Char} :
    pat.isPrefixOf? cs = none ↔ ¬ pat <+: cs := by
  rw [Option.eq_none_iff_forall_ne_some]
  constructor
  · rintro h ⟨rest, rfl⟩
    exact h rest (isPrefixOf?_append pat rest)
  · intro h rest hr
    exact h ⟨rest, List.isPrefixOf?_eq_some_iff_append_eq.mp hr⟩

theorem cut_of_prefix (pat rest : List Char) : cut pat (pat ++ rest) = some ([], rest) := by
  cases pat with
  | nil => cases rest <;> rfl
  | cons p pat =>
      have h := isPrefixOf?_append (p :: pat) rest
      rw [List.cons_append] at h ⊢
      rw [cut, h]

theorem cut_cons {pat : List Char} {c : Char} {cs : List Char} (h : ¬ pat <+: c :: cs) :
    cut pat (c :: cs) = (cut pat cs).map fun (before, after) => (c :: before, after) := by
  rw [cut, isPrefixOf?_eq_none_iff.mpr h]

theorem cut_eq_some_iff {pat : List Char} : ∀ {cs before after : List Char},
    cut pat cs = some (before, after) ↔
      FirstPlace (fun _ rest => pat <+: rest) cs before (pat ++ after) := by
  intro cs
  induction cs with
  | nil =>
      intro before after
      constructor
      · intro h
        have hs := append_of_cut h
        simp only [List.nil_eq, List.append_eq_nil_iff] at hs
        obtain ⟨⟨rfl, rfl⟩, rfl⟩ := hs
        exact firstPlace_nil_iff.mpr ⟨rfl, List.nil_prefix⟩
      · intro h
        have hs := h.split
        simp only [List.nil_eq, List.append_eq_nil_iff] at hs
        obtain ⟨rfl, rfl, rfl⟩ := hs
        rfl
  | cons c cs ih =>
      intro before after
      by_cases hp : pat <+: c :: cs
      · obtain ⟨rest, hrest⟩ := hp
        rw [← hrest, cut_of_prefix]
        have hfirst : FirstPlace (fun _ rest => pat <+: rest) (pat ++ rest) [] (pat ++ rest) :=
          firstPlace_nil_iff.mpr ⟨rfl, List.prefix_append _ _⟩
        constructor
        · intro h
          obtain ⟨rfl, rfl⟩ := Prod.mk.inj (Option.some.inj h)
          exact hfirst
        · intro h
          obtain ⟨rfl, ha⟩ := hfirst.unique h
          rw [List.append_cancel_left ha]
      · rw [cut_cons hp, Option.map_eq_some_iff]
        constructor
        · rintro ⟨⟨b, a⟩, hb, heq⟩
          obtain ⟨rfl, rfl⟩ := Prod.mk.inj heq
          exact (firstPlace_cons_after hp).mpr (ih.mp hb)
        · intro h
          cases before with
          | nil => exact absurd (firstPlace_nil_iff.mp h).2 hp
          | cons d b =>
              obtain rfl := (firstPlace_cons_iff.mp h).1
              exact ⟨(b, after), ih.mpr ((firstPlace_cons_after hp).mp h), rfl⟩

/-- Where the two sides of a pattern are known, that it is first is all `cut` needs. -/
theorem cut_of_firstIn {pat before after : List Char}
    (h : FirstIn pat (before ++ pat ++ after) before) :
    cut pat (before ++ pat ++ after) = some (before, after) := by
  obtain ⟨tail, ht⟩ := h
  have hs := ht.split
  rw [List.append_assoc] at hs
  rw [← List.append_cancel_left hs] at ht
  exact cut_eq_some_iff.mpr ht

theorem FirstIn.append {pat before after : List Char}
    (h : FirstIn pat (before ++ pat ++ after) before) (after' : List Char) :
    FirstIn pat (before ++ pat ++ after') before := by
  obtain ⟨_, hfirst⟩ := h
  refine ⟨pat ++ after', List.append_assoc _ _ _, List.prefix_append _ _, fun b a hs hp => ?_⟩
  -- A place further to the front would end within `before ++ pat`, and so be one in either text.
  by_contra hlt
  have hb : b ++ pat <+: before ++ pat ++ after' := by
    rw [hs]
    exact (List.prefix_append_right_inj b).mpr hp
  have hle : (b ++ pat).length ≤ (before ++ pat).length := by
    simp only [List.length_append]
    omega
  obtain ⟨tail, htail⟩ := List.prefix_of_prefix_length_le hb (List.prefix_append _ _) hle
  refine hlt (hfirst.first b (pat ++ (tail ++ after)) ?_ (List.prefix_append _ _))
  rw [← htail]
  simp

theorem cut_eq_none_iff {pat cs : List Char} : cut pat cs = none ↔ ¬ pat <:+: cs := by
  induction cs with
  | nil => cases pat <;> simp [cut]
  | cons c cs ih =>
      rw [List.infix_cons_iff]
      by_cases hp : pat <+: c :: cs
      · obtain ⟨rest, hrest⟩ := hp
        rw [← hrest, cut_of_prefix]
        simp
      · rw [cut_cons hp, Option.map_eq_none_iff, ih]
        simp [hp]

theorem prefix_of_prefix_append_cons {pat : List Char} {c : Char} (hc : c ∉ pat)
    {cs rest : List Char} : pat <+: cs ++ c :: rest → pat <+: cs := by
  rintro ⟨after, hs⟩
  rcases List.append_eq_append_iff.mp hs with ⟨tail, rfl, _⟩ | ⟨tail, rfl, ht⟩
  · exact List.prefix_append _ _
  · cases tail with
    | nil => simp
    | cons d tail =>
        obtain ⟨rfl, _⟩ := List.cons.inj ht
        exact absurd (by simp) hc

/-- A pattern that does not hold the character `c` is not found in a text without it, nor across
the `c` after that text. -/
theorem cut_skip {pat : List Char} {c : Char} (hc : c ∉ pat) (hne : pat ≠ []) :
    ∀ (cs rest : List Char), ¬ pat <:+: cs →
      cut pat (cs ++ c :: rest) =
        (cut pat rest).map fun (before, after) => (cs ++ c :: before, after) := by
  intro cs rest
  induction cs with
  | nil =>
      intro _
      have hp : ¬ pat <+: c :: rest := fun h =>
        hne (List.prefix_nil.mp (@prefix_of_prefix_append_cons _ _ hc [] _ h))
      exact cut_cons hp
  | cons d cs ih =>
      intro hcs
      rw [List.infix_cons_iff, not_or] at hcs
      have hp : ¬ pat <+: d :: (cs ++ c :: rest) := fun h =>
        hcs.1 (@prefix_of_prefix_append_cons _ _ hc (d :: cs) _ h)
      rw [List.cons_append, cut_cons hp, ih hcs.2, Option.map_map]
      rfl

/-! ## Maximal runs -/

/-- `run` is of the class `p`, and `rest` after it does not go on with the class. -/
structure MaximalRun (p : Char → Bool) (run rest : List Char) : Prop where
  inside : ∀ c ∈ run, p c = true
  stops : ∀ c ∈ rest.head?, p c = false

theorem maximalRun_cons {p : Char → Bool} {run : List Char} {c : Char}
    (hr : ∀ d ∈ run, p d = true) (hc : p c = false) (rest : List Char) :
    MaximalRun p run (c :: rest) := by
  refine ⟨hr, fun d hd => ?_⟩
  obtain rfl : c = d := Option.mem_some.mp hd
  exact hc

theorem maximalRun_of_all {p : Char → Bool} {run : List Char} {c : Char} (hr : run.all p = true)
    (hc : p c = false) (rest : List Char) : MaximalRun p run (c :: rest) :=
  maximalRun_cons (List.all_eq_true.mp hr) hc rest

theorem maximalRun_takeWhile (p : Char → Bool) (cs : List Char) :
    MaximalRun p (cs.takeWhile p) (cs.dropWhile p) where
  inside _ hc := List.mem_takeWhile_imp hc
  stops c hc := by
    have h := List.head?_dropWhile_not p cs
    rw [hc] at h
    exact h

theorem exists_maximalRun (p : Char → Bool) (cs : List Char) :
    ∃ run rest, cs = run ++ rest ∧ MaximalRun p run rest :=
  ⟨_, _, List.takeWhile_append_dropWhile.symm, maximalRun_takeWhile p cs⟩

theorem MaximalRun.takeWhile_eq {p : Char → Bool} {run rest : List Char}
    (h : MaximalRun p run rest) : (run ++ rest).takeWhile p = run := by
  rw [List.takeWhile_append_of_pos h.inside]
  cases rest with
  | nil => simp
  | cons c rest => simp [h.stops c rfl]

theorem MaximalRun.dropWhile_eq {p : Char → Bool} {run rest : List Char}
    (h : MaximalRun p run rest) : (run ++ rest).dropWhile p = rest := by
  rw [List.dropWhile_append_of_pos h.inside]
  cases rest with
  | nil => rfl
  | cons c rest => simp [h.stops c rfl]

end SignatureSearch.Text
