/-
# `Proofs.Signature.Terms` — a signature that is written out is read back

Terms that are trimmed and hold neither layout characters nor arrows are
written with spaced arrows between them, and `terms` reads back exactly these
(`terms_join`).  What is lost around a term is what trimming drops, so that
blanks before the first term do not matter (`terms_dropWhile`) and a line break
after the last one does not either.
-/
import SignatureSearch.Proofs.Text.Words
import SignatureSearch.Signature.Terms

namespace SignatureSearch.Text

/-! ## Trimming -/

theorem trim_blank {c : Char} (hc : isBlank c = true) (cs : List Char) :
    trim (c :: cs) = trim cs := by
  rw [trim, trim, trimBy, trimBy, List.dropWhile_cons, if_pos hc]

theorem trim_gap_append {gap : List Char} (hg : ∀ c ∈ gap, isBlank c = true) (cs : List Char) :
    trim (gap ++ cs) = trim cs := by
  rw [trim, trim, trimBy, trimBy, List.dropWhile_append_of_pos hg]

theorem trim_append_gap {gap : List Char} (hg : ∀ c ∈ gap, isBlank c = true) (cs : List Char) :
    trim (cs ++ gap) = trim cs := by
  have hrev : ∀ c ∈ gap.reverse, isBlank c = true := fun c hc => hg c (List.mem_reverse.mp hc)
  rw [trim, trim, trimBy, trimBy, List.dropWhile_append]
  split
  · rename_i he
    rw [List.isEmpty_iff.mp he, List.dropWhile_eq_nil_iff.mpr hg]
  · rw [List.reverse_append, List.dropWhile_append_of_pos hrev]

theorem length_trim_le (cs : List Char) : (trim cs).length ≤ cs.length := by
  have h₁ := (List.dropWhile_sublist isBlank (l := cs)).length_le
  have h₂ := (List.dropWhile_sublist isBlank (l := (cs.dropWhile isBlank).reverse)).length_le
  rw [trim, trimBy, List.length_reverse]
  rw [List.length_reverse] at h₂
  exact h₂.trans h₁

theorem isBlank_head_of_trim {c : Char} {cs : List Char} (h : trim (c :: cs) = c :: cs) :
    isBlank c = false := by
  cases hc : isBlank c with
  | false => rfl
  | true =>
      have hlen := length_trim_le cs
      rw [trim_blank hc] at h
      rw [h] at hlen
      exact absurd hlen (Nat.not_succ_le_self _)

end SignatureSearch.Text

namespace SignatureSearch.Signature

open Text

/-! ## Cutting at arrows -/

theorem splitArrows_ne_nil (cs : List Char) : splitArrows cs ≠ [] := by
  fun_induction splitArrows cs with
  | case1 => exact List.cons_ne_nil _ _
  | case2 => exact List.cons_ne_nil _ _
  | case3 => exact List.cons_ne_nil _ _
  | case4 => exact List.cons_ne_nil _ _

theorem splitArrows_cons {c : Char} {cs term : List Char} {others : List (List Char)}
    (h : ¬ ['-', '>'] <+: c :: cs) (hs : splitArrows cs = term :: others) :
    splitArrows (c :: cs) = (c :: term) :: others := by
  rw [splitArrows.eq_def]
  split
  · rename_i heq
    exact absurd heq (by simp)
  · rename_i rest heq
    rw [heq] at h
    exact absurd ⟨rest, rfl⟩ h
  · rename_i heq
    obtain ⟨rfl, rfl⟩ := List.cons.inj heq
    rw [hs]

theorem splitArrows_of_no_arrow {cs : List Char} (h : ¬ ['-', '>'] <:+: cs) :
    splitArrows cs = [cs] := by
  induction cs with
  | nil => rfl
  | cons c cs ih =>
      rw [List.infix_cons_iff, not_or] at h
      exact splitArrows_cons h.1 (ih h.2)

/-- Two texts whose border lies between a hyphen and a `>`. -/
def Across (xs ys : List Char) : Prop :=
  xs.getLast? = some '-' ∧ ys.head? = some '>'

instance (xs ys : List Char) : Decidable (Across xs ys) :=
  inferInstanceAs (Decidable (_ ∧ _))

theorem not_across_nil (ys : List Char) : ¬ Across [] ys :=
  fun h => nomatch h.1

theorem Across.cons {c : Char} {xs ys : List Char} (h : Across xs ys) : Across (c :: xs) ys := by
  refine ⟨?_, h.2⟩
  rw [List.getLast?_cons_of_ne_nil (by rintro rfl; exact not_across_nil ys h)]
  exact h.1

/-- **A text is cut as its halves are**, if no arrow lies across the border: the last term of the
first half and the first one of the second become one term. -/
theorem splitArrows_append {xs ys last first : List Char} {init rest : List (List Char)}
    (hborder : ¬ Across xs ys) (hxs : splitArrows xs = init ++ [last])
    (hys : splitArrows ys = first :: rest) :
    splitArrows (xs ++ ys) = init ++ (last ++ first) :: rest := by
  fun_induction splitArrows xs generalizing init last with
  | case1 =>
      obtain ⟨rfl, hlast⟩ | ⟨-, hlast⟩ := List.singleton_eq_append_iff.mp hxs
      · obtain rfl := List.singleton_inj.mp hlast
        exact hys
      · cases hlast
  | case2 xs ih =>
      obtain ⟨-, hlast⟩ | ⟨init, rfl, htail⟩ := List.cons_eq_append_iff.mp hxs
      · exact absurd (List.cons.inj hlast).2.symm (splitArrows_ne_nil xs)
      · rw [List.cons_append, List.cons_append, splitArrows,
          ih (fun h => hborder h.cons.cons) htail, List.cons_append]
  | case3 c xs _ hnil _ => exact absurd hnil (splitArrows_ne_nil xs)
  | case4 c xs hc term terms hs ih =>
      -- An arrow at the front would have to lie across the border.
      have hfront : ¬ ['-', '>'] <+: c :: (xs ++ ys) := by
        intro hfront
        obtain ⟨rfl, hnext⟩ := List.cons_prefix_cons.mp hfront
        cases xs with
        | nil =>
            obtain ⟨tail, rfl⟩ := hnext
            exact hborder ⟨rfl, rfl⟩
        | cons d xs =>
            obtain ⟨rfl, -⟩ := List.cons_prefix_cons.mp hnext
            exact hc xs rfl rfl
      have hrest : ¬ Across xs ys := fun h => hborder h.cons
      obtain ⟨rfl, hlast⟩ | ⟨init, rfl, rfl⟩ := List.cons_eq_append_iff.mp hxs
      · obtain ⟨rfl, rfl⟩ := List.cons.inj hlast
        have htail : splitArrows (xs ++ ys) = (term ++ first) :: rest := @ih term [] hrest hs
        exact splitArrows_cons hfront htail
      · have htail : splitArrows (xs ++ ys) = term :: (init ++ (last ++ first) :: rest) :=
          @ih last (term :: init) hrest hs
        exact splitArrows_cons hfront htail

theorem exists_last_term (cs : List Char) : ∃ init last, splitArrows cs = init ++ [last] :=
  ⟨_, _, (List.dropLast_append_getLast (splitArrows_ne_nil cs)).symm⟩

/-- The terms before an arrow and those after it are the terms of a text. -/
theorem splitArrows_append_arrow (xs ys : List Char) :
    splitArrows (xs ++ '-' :: '>' :: ys) = splitArrows xs ++ splitArrows ys := by
  obtain ⟨init, last, hxs⟩ := exists_last_term xs
  have harrow : splitArrows ('-' :: '>' :: ys) = [] :: splitArrows ys := rfl
  have hborder : ¬ Across xs ('-' :: '>' :: ys) := fun h => nomatch h.2
  rw [splitArrows_append hborder hxs harrow, hxs, List.append_nil, List.append_assoc]
  rfl

/-! ## Terms -/

/-- A text that is a term of a signature as it stands. -/
structure IsTerm (t : List Char) : Prop where
  trimmed : trim t = t
  noLayout : ∀ c ∈ t, isLayout c = false
  noArrow : ¬ ['-', '>'] <:+: t

instance (t : List Char) : Decidable (IsTerm t) :=
  decidable_of_iff
    (trim t = t ∧ t.all (fun c => !isLayout c) = true ∧ ¬ ['-', '>'] <:+: t)
    ⟨fun h => ⟨h.1, by simpa using h.2.1, h.2.2⟩,
      fun h => ⟨h.trimmed, by simpa using h.noLayout, h.noArrow⟩⟩

/-- Terms written with spaced arrows between them. -/
def joinTerms (ts : List (List Char)) : List Char :=
  [' ', '-', '>', ' '].intercalate ts

theorem joinTerms_cons (t : List Char) {ts : List (List Char)} (h : ts ≠ []) :
    joinTerms (t :: ts) = t ++ ' ' :: '-' :: '>' :: ' ' :: joinTerms ts := by
  obtain ⟨u, us, rfl⟩ := List.exists_cons_of_ne_nil h
  simp [joinTerms, List.intercalate]

theorem cleanTerm_gap_append_gap {gap t gap' : List Char} (hg : ∀ c ∈ gap, isBlank c = true)
    (ht : IsTerm t) (hg' : ∀ c ∈ gap', isBlank c = true) : cleanTerm (gap ++ t ++ gap') = t := by
  have hkeep : t.filter (fun c => !isLayout c) = t :=
    List.filter_eq_self.mpr fun c hc => by rw [ht.noLayout c hc]; rfl
  rw [cleanTerm, List.filter_append, List.filter_append, hkeep, trim_append_gap,
    trim_gap_append, ht.trimmed]
  · exact fun c hc => hg c (List.mem_filter.mp hc).1
  · exact fun c hc => hg' c (List.mem_filter.mp hc).1

theorem cleanTerm_blank {c : Char} (hc : isBlank c = true) (cs : List Char) :
    cleanTerm (c :: cs) = cleanTerm cs := by
  rw [cleanTerm, cleanTerm, List.filter_cons]
  split
  · exact trim_blank hc _
  · rfl

theorem terms_blank {c : Char} (hc : isBlank c = true) (cs : List Char) :
    terms (c :: cs) = terms cs := by
  obtain ⟨t, ts, hs⟩ := List.exists_cons_of_ne_nil (splitArrows_ne_nil cs)
  have hp : ¬ ['-', '>'] <+: c :: cs := by
    intro hp
    obtain rfl := (List.cons_prefix_cons.mp hp).1
    exact absurd hc (by decide)
  rw [terms, terms, splitArrows_cons hp hs, hs, List.map_cons, List.map_cons, cleanTerm_blank hc]

theorem terms_dropWhile (cs : List Char) : terms (cs.dropWhile isBlank) = terms cs := by
  induction cs with
  | nil => rfl
  | cons c cs ih =>
      rw [List.dropWhile_cons]
      split
      · rename_i hc
        rw [ih, terms_blank hc]
      · rfl

theorem no_arrow_append {t : List Char} (ht : ¬ ['-', '>'] <:+: t) {c : Char}
    (hc : c ∉ ['-', '>']) : ¬ ['-', '>'] <:+: t ++ [c] := by
  rw [← cut_eq_none_iff, cut_skip hc (by simp) t [] ht]
  rfl

/-- Terms that are written out, with a line break after them, are read back. -/
theorem terms_join {ts : List (List Char)} : ts ≠ [] → (∀ t ∈ ts, IsTerm t) →
    terms (joinTerms ts ++ ['\n']) = ts.map String.ofList := by
  induction ts with
  | nil => exact fun hne _ => absurd rfl hne
  | cons t ts ih =>
      intro _ hts
      have ht : IsTerm t := hts t List.mem_cons_self
      have htail : ∀ u ∈ ts, IsTerm u := fun u hu => hts u (List.mem_cons_of_mem _ hu)
      have hclean : ∀ {c : Char}, isBlank c = true → cleanTerm (t ++ [c]) = t := fun hc =>
        @cleanTerm_gap_append_gap [] t [_] (by simp) ht (by simpa using hc)
      cases ts with
      | nil =>
          have hsplit := splitArrows_of_no_arrow (no_arrow_append ht.noArrow (c := '\n') (by decide))
          rw [joinTerms, List.intercalate_singleton, terms, hsplit, List.map_singleton,
            hclean (by decide), List.map_singleton]
      | cons u us =>
          have hne : u :: us ≠ [] := List.cons_ne_nil u us
          have hspace := no_arrow_append ht.noArrow (c := ' ') (by decide)
          have hsplit := splitArrows_append_arrow (t ++ [' ']) (' ' :: (joinTerms (u :: us) ++ ['\n']))
          rw [splitArrows_of_no_arrow hspace, List.singleton_append] at hsplit
          have htext : joinTerms (t :: u :: us) ++ ['\n'] =
              t ++ [' '] ++ '-' :: '>' :: ' ' :: (joinTerms (u :: us) ++ ['\n']) := by
            rw [joinTerms_cons t hne]
            simp
          rw [htext, terms, hsplit, List.map_cons, hclean (by decide), ← terms,
            terms_blank (by decide), ih hne htail]
          rfl

end SignatureSearch.Signature
