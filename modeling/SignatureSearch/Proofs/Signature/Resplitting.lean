/-
# `Proofs.Signature.Resplitting` — terms that are written out and split again

A signature is cut at its arrows first; only then are layout characters taken
out of the terms.  So an arrow that is torn apart by them,

    Torn      a hyphen, then layout characters, then `>`

is none when the signature is cut, and becomes one inside a term.  That is all
that can happen: what is written out with spaced arrows between the terms is
split into the same terms again, unless an arrow was torn, and then into more
(`terms_normalize`).

How a text is cut depends on its two halves only, unless an arrow lies across
the border between them (`splitArrows_append`).  Hence a layout character that
comes or goes makes no difference anywhere else.
-/
import Mathlib.Algebra.Order.BigOperators.Group.List
import Mathlib.Algebra.Order.Ring.Nat
import Mathlib.Data.List.DropRight
import SignatureSearch.Proofs.Signature.Terms

namespace SignatureSearch.Text

/-! ## What trimming leaves -/

theorem infix_dropWhile {p : Char → Bool} {pat cs : List Char} (hpat : ∀ c ∈ pat, p c = false)
    (h : pat <:+: cs) : pat <:+: cs.dropWhile p := by
  obtain ⟨before, after, rfl⟩ := h
  cases pat with
  | nil => exact List.nil_infix
  | cons c pat =>
      rw [List.append_assoc, List.dropWhile_append]
      split
      · rw [List.cons_append, List.dropWhile_cons_of_neg (by simp [hpat c List.mem_cons_self])]
        exact List.infix_append' [] (c :: pat) after
      · exact ⟨before.dropWhile p, after, List.append_assoc _ _ _⟩

theorem infix_trim (cs : List Char) : trim cs <:+: cs := by
  have hback := List.dropWhile_suffix isBlank (l := (cs.dropWhile isBlank).reverse)
  rw [← List.reverse_prefix, List.reverse_reverse] at hback
  exact hback.isInfix.trans (List.dropWhile_suffix isBlank).isInfix

theorem infix_trim_iff {pat cs : List Char} (hpat : ∀ c ∈ pat, isBlank c = false) :
    pat <:+: trim cs ↔ pat <:+: cs := by
  refine ⟨fun h => h.trans (infix_trim cs), fun h => ?_⟩
  have hfront := List.reverse_infix.mpr (infix_dropWhile hpat h)
  have hback := infix_dropWhile (fun c hc => hpat c (List.mem_reverse.mp hc)) hfront
  rwa [← List.reverse_infix, List.reverse_reverse] at hback

theorem arrow_infix_trim_iff {cs : List Char} :
    ['-', '>'] <:+: trim cs ↔ ['-', '>'] <:+: cs := by
  refine infix_trim_iff fun c hc => ?_
  rcases List.mem_pair.mp hc with rfl | rfl <;> rfl

theorem isBlank_head_trim {cs : List Char} {c : Char} (h : (trim cs).head? = some c) :
    isBlank c = false := by
  have hback := List.dropWhile_suffix isBlank (l := (cs.dropWhile isBlank).reverse)
  rw [← List.reverse_prefix, List.reverse_reverse] at hback
  obtain ⟨gap, hgap⟩ := hback
  have hfront := List.head?_dropWhile_not isBlank cs
  rw [← hgap, List.head?_append_of_ne_nil _ (by rintro hnil; rw [trim, trimBy, hnil] at h; cases h)]
    at hfront
  rw [trim, trimBy] at h
  rw [h] at hfront
  simpa using hfront

theorem isBlank_getLast_trim {cs : List Char} {c : Char} (h : (trim cs).getLast? = some c) :
    isBlank c = false := by
  have hback := List.head?_dropWhile_not isBlank (cs.dropWhile isBlank).reverse
  rw [trim, trimBy, List.getLast?_reverse] at h
  rw [h] at hback
  simpa using hback

theorem trim_trim (cs : List Char) : trim (trim cs) = trim cs := by
  have hfront : (trim cs).dropWhile isBlank = trim cs := by
    rw [List.dropWhile_eq_self_iff]
    intro hpos hblank
    have hhead : (trim cs).head? = some (trim cs)[0] := by
      rw [List.head?_eq_getElem?, List.getElem?_eq_getElem hpos]
    rw [isBlank_head_trim hhead] at hblank
    cases hblank
  rw [trim, trimBy, hfront, trim, trimBy, List.reverse_reverse, List.dropWhile_idempotent]

end SignatureSearch.Text

namespace SignatureSearch.Signature

open Text

/-! ## The terms of a text -/

theorem prefix_of_splitArrows {cs first : List Char} {rest : List (List Char)}
    (h : splitArrows cs = first :: rest) : first <+: cs := by
  fun_induction splitArrows cs generalizing first rest with
  | case1 => exact (List.cons.inj h).1 ▸ List.nil_prefix
  | case2 => exact (List.cons.inj h).1 ▸ List.nil_prefix
  | case3 c cs _ hnil _ => exact absurd hnil (splitArrows_ne_nil cs)
  | case4 c cs _ term terms hs ih =>
      obtain ⟨rfl, -⟩ := List.cons.inj h
      exact (List.prefix_cons_inj c).mpr (ih hs)

theorem of_mem_splitArrows {cs term : List Char} (h : term ∈ splitArrows cs) :
    term <:+: cs ∧ ¬ ['-', '>'] <:+: term := by
  fun_induction splitArrows cs generalizing term with
  | case1 =>
      obtain rfl := List.mem_singleton.mp h
      exact ⟨List.nil_infix, by decide⟩
  | case2 cs ih =>
      obtain rfl | h := List.mem_cons.mp h
      · exact ⟨List.nil_infix, by decide⟩
      · exact ⟨(ih h).1.trans (List.suffix_append ['-', '>'] cs).isInfix, (ih h).2⟩
  | case3 c cs _ hnil _ => exact absurd hnil (splitArrows_ne_nil cs)
  | case4 c cs hc first rest hs ih =>
      obtain rfl | h := List.mem_cons.mp h
      · have hprefix := prefix_of_splitArrows hs
        refine ⟨((List.prefix_cons_inj c).mpr hprefix).isInfix, fun harrow => ?_⟩
        obtain hfront | hlater := List.infix_cons_iff.mp harrow
        · obtain ⟨tail, htail⟩ := hfront.trans ((List.prefix_cons_inj c).mpr hprefix)
          obtain ⟨rfl, rfl⟩ := List.cons.inj htail
          exact hc tail rfl rfl
        · exact (ih (hs ▸ List.mem_cons_self)).2 hlater
      · obtain ⟨hin, harrow⟩ := ih (hs ▸ List.mem_cons_of_mem _ h)
        exact ⟨List.infix_cons hin, harrow⟩

/-! ## Torn arrows -/

/-- Layout characters, at least one, stand between a hyphen and a `>`. -/
def Torn (cs : List Char) : Prop :=
  ∃ before gap after, gap ≠ [] ∧ (∀ c ∈ gap, isLayout c = true) ∧
    cs = before ++ '-' :: (gap ++ '>' :: after)

/-- Layout characters in front of a text are the first ones of its first term. -/
theorem splitArrows_layout_append {gap cs first : List Char} {rest : List (List Char)}
    (hgap : ∀ c ∈ gap, isLayout c = true) (h : splitArrows cs = first :: rest) :
    splitArrows (gap ++ cs) = (gap ++ first) :: rest := by
  induction gap with
  | nil => exact h
  | cons c gap ih =>
      rw [List.forall_mem_cons] at hgap
      refine splitArrows_cons (fun hfront => ?_) (ih hgap.2)
      obtain rfl := (List.cons_prefix_cons.mp hfront).1
      exact absurd hgap.1 (by decide)

/-- A torn arrow lies in one of the terms, and is an arrow there without the layout characters. -/
theorem torn_iff {cs : List Char} :
    Torn cs ↔ ∃ term ∈ splitArrows cs, ['-', '>'] <:+: term.filter (!isLayout ·) := by
  constructor
  · rintro ⟨before, gap, after, hne, hgap, rfl⟩
    obtain ⟨init, last, hbefore⟩ := exists_last_term before
    obtain ⟨first, rest, hafter⟩ := List.exists_cons_of_ne_nil (splitArrows_ne_nil after)
    have hclose : splitArrows ('>' :: after) = ('>' :: first) :: rest :=
      splitArrows_cons (fun h => absurd (List.cons_prefix_cons.mp h).1 (by decide)) hafter
    have hopen : splitArrows ('-' :: (gap ++ '>' :: after)) =
        ('-' :: (gap ++ '>' :: first)) :: rest := by
      refine splitArrows_cons (fun h => ?_) (splitArrows_layout_append hgap hclose)
      obtain ⟨c, gap, rfl⟩ := List.exists_cons_of_ne_nil hne
      obtain rfl := (List.cons_prefix_cons.mp (List.cons_prefix_cons.mp h).2).1
      exact absurd (hgap _ List.mem_cons_self) (by decide)
    have hnone : gap.filter (!isLayout ·) = [] :=
      List.filter_eq_nil_iff.mpr fun c hc => by simp [hgap c hc]
    have hborder : ¬ Across before ('-' :: (gap ++ '>' :: after)) := fun h => nomatch h.2
    refine ⟨_, splitArrows_append hborder hbefore hopen ▸ List.mem_append_right _
      List.mem_cons_self, ?_⟩
    rw [List.filter_append, List.filter_cons_of_pos (by decide), List.filter_append, hnone,
      List.nil_append, List.filter_cons_of_pos (by decide)]
    exact List.infix_append' _ ['-', '>'] _
  · rintro ⟨term, hterm, harrow⟩
    obtain ⟨hin, hwhole⟩ := of_mem_splitArrows hterm
    obtain ⟨l, r, hfilter⟩ := harrow
    rw [List.append_assoc] at hfilter
    obtain ⟨before, opened, rfl, -, hopened⟩ := List.filter_eq_append_iff.mp hfilter.symm
    obtain ⟨between, closed, rfl, -, -, hclosed⟩ := List.filter_eq_cons_iff.mp hopened
    obtain ⟨gap, after, rfl, hgap, -, -⟩ := List.filter_eq_cons_iff.mp hclosed
    obtain ⟨start, stop, rfl⟩ := hin
    refine ⟨start ++ before ++ between, gap, after ++ stop, ?_, by simpa using hgap, by simp⟩
    rintro rfl
    exact hwhole ⟨before ++ between, after, by simp⟩

/-! ## Terms as they are -/

/-- A term that was cut out and cleaned is a term as it stands, but perhaps for an arrow. -/
theorem isTerm_cleanTerm_iff {term : List Char} :
    IsTerm (cleanTerm term) ↔ ¬ ['-', '>'] <:+: term.filter (!isLayout ·) := by
  have harrow : ['-', '>'] <:+: cleanTerm term ↔ ['-', '>'] <:+: term.filter (!isLayout ·) :=
    arrow_infix_trim_iff
  constructor
  · exact fun h => harrow.not.mp h.noArrow
  · refine fun h => ⟨trim_trim _, fun c hc => ?_, harrow.not.mpr h⟩
    have hkept := (infix_trim _).subset hc
    simpa using (List.mem_filter.mp hkept).2

theorem toList_normalize_terms (body : List Char) :
    (normalize (terms body)).toList = joinTerms ((splitArrows body).map cleanTerm) := by
  rw [normalize, String.toList_intercalate, terms, List.map_map]
  simp only [Function.comp_def, String.toList_ofList]
  rfl

theorem terms_append_layout {c : Char} (hc : isLayout c = true) {before after : List Char}
    (h : ¬ Across before after) : terms (before ++ c :: after) = terms (before ++ after) := by
  obtain ⟨init, last, hbefore⟩ := exists_last_term before
  obtain ⟨first, rest, hafter⟩ := List.exists_cons_of_ne_nil (splitArrows_ne_nil after)
  have hwith : splitArrows (c :: after) = (c :: first) :: rest :=
    @splitArrows_layout_append [c] after first rest (by simpa using hc) hafter
  have hborder : ¬ Across before (c :: after) := by
    rintro ⟨-, hnext⟩
    obtain rfl := Option.some.inj hnext
    exact absurd hc (by decide)
  have hclean : cleanTerm (last ++ c :: first) = cleanTerm (last ++ first) := by
    rw [cleanTerm, cleanTerm, List.filter_append, List.filter_append,
      List.filter_cons_of_neg (by simp [hc])]
  rw [terms, terms, splitArrows_append hborder hbefore hwith, splitArrows_append h hbefore hafter,
    List.map_append, List.map_append, List.map_cons, List.map_cons, hclean]

theorem terms_joinTerms {ts : List (List Char)} (hne : ts ≠ []) (h : ∀ t ∈ ts, IsTerm t) :
    terms (joinTerms ts) = ts.map String.ofList := by
  have hend := @terms_append_layout '\n' (by decide) (joinTerms ts) [] (fun h => nomatch h.2)
  rw [List.append_nil] at hend
  rw [← hend, terms_join hne h]

/-! ## How many terms there are -/

theorem length_splitArrows_spaced (t : List Char) :
    (splitArrows (t ++ [' '])).length = (splitArrows t).length ∧
      (splitArrows (' ' :: t)).length = (splitArrows t).length := by
  obtain ⟨init, last, hlast⟩ := exists_last_term t
  obtain ⟨first, rest, hfirst⟩ := List.exists_cons_of_ne_nil (splitArrows_ne_nil t)
  constructor
  · have hborder : ¬ Across t [' '] := fun h => nomatch h.2
    rw [splitArrows_append hborder hlast rfl, hlast]
    simp
  · rw [splitArrows_cons (fun h => absurd (List.cons_prefix_cons.mp h).1 (by decide)) hfirst,
      hfirst]
    rfl

theorem length_splitArrows_joinTerms {ts : List (List Char)} (hne : ts ≠ []) :
    (splitArrows (joinTerms ts)).length = (ts.map fun t => (splitArrows t).length).sum := by
  induction ts with
  | nil => exact absurd rfl hne
  | cons t ts ih =>
      cases ts with
      | nil => simp [joinTerms]
      | cons u us =>
          have hspaced : joinTerms (t :: u :: us) =
              (t ++ [' ']) ++ '-' :: '>' :: (' ' :: joinTerms (u :: us)) := by
            rw [joinTerms_cons t (List.cons_ne_nil u us)]
            simp
          rw [hspaced, splitArrows_append_arrow, List.length_append,
            (length_splitArrows_spaced t).1, (length_splitArrows_spaced _).2,
            ih (List.cons_ne_nil u us)]
          exact List.sum_cons.symm

theorem length_splitArrows_pos (t : List Char) : 1 ≤ (splitArrows t).length :=
  List.length_pos_iff.mpr (splitArrows_ne_nil t)

theorem one_lt_length_splitArrows {t : List Char} (h : ['-', '>'] <:+: t) :
    1 < (splitArrows t).length := by
  obtain ⟨before, after, rfl⟩ := h
  rw [List.append_assoc]
  show 1 < (splitArrows (before ++ '-' :: '>' :: after)).length
  rw [splitArrows_append_arrow, List.length_append]
  have h₁ := length_splitArrows_pos before
  have h₂ := length_splitArrows_pos after
  omega

/-! ## Splitting again -/

/-- A text from which another one comes by steps: a layout character is put in or taken out, but not
right between a hyphen and a `>`. -/
inductive Relaid (cs : List Char) : List Char → Prop
  | same : Relaid cs cs
  | insert {before after : List Char} {c : Char} : Relaid cs (before ++ after) →
      isLayout c = true → ¬ Across before after → Relaid cs (before ++ c :: after)
  | delete {before after : List Char} {c : Char} : Relaid cs (before ++ c :: after) →
      isLayout c = true → ¬ Across before after → Relaid cs (before ++ after)

theorem Relaid.terms_eq {cs ds : List Char} (h : Relaid cs ds) : terms ds = terms cs := by
  induction h with
  | same => rfl
  | insert _ hc hborder ih => exact (terms_append_layout hc hborder).trans ih
  | delete _ hc hborder ih => exact (terms_append_layout hc hborder).symm.trans ih

/-- A text without layout characters, and without white space at its ends. -/
structure IsClean (t : String) : Prop where
  noLayout : ∀ c ∈ t.toList, isLayout c = false
  head : ∀ c ∈ t.toList.head?, isBlank c = false
  last : ∀ c ∈ t.toList.getLast?, isBlank c = false

theorem isClean_of_mem_terms {body : List Char} {t : String} (h : t ∈ terms body) : IsClean t := by
  obtain ⟨term, -, rfl⟩ := List.mem_map.mp h
  refine ⟨fun c hc => ?_, fun c hc => ?_, fun c hc => ?_⟩ <;> rw [String.toList_ofList] at hc
  · have hkept := (infix_trim _).subset hc
    simpa using (List.mem_filter.mp hkept).2
  · exact isBlank_head_trim hc
  · exact isBlank_getLast_trim hc

theorem length_terms_normalize {body : List Char} (h : Torn body) :
    (terms body).length < (terms (normalize (terms body)).toList).length := by
  obtain ⟨term, hterm, harrow⟩ := torn_iff.mp h
  have hne : (splitArrows body).map cleanTerm ≠ [] := by simpa using splitArrows_ne_nil body
  have hmore : 1 < (splitArrows (cleanTerm term)).length :=
    one_lt_length_splitArrows (arrow_infix_trim_iff.mpr harrow)
  have hsum := List.sum_lt_sum (fun _ => 1) (fun t => (splitArrows (cleanTerm t)).length)
    (fun t _ => length_splitArrows_pos (cleanTerm t)) ⟨term, hterm, hmore⟩
  rw [toList_normalize_terms, terms, terms, List.length_map, List.length_map,
    length_splitArrows_joinTerms hne, List.map_map]
  simpa [Function.comp_def] using hsum

theorem terms_normalize_of_not_torn {body : List Char} (h : ¬ Torn body) :
    terms (normalize (terms body)).toList = terms body := by
  rw [torn_iff, not_exists] at h
  rw [toList_normalize_terms, terms_joinTerms (by simpa using splitArrows_ne_nil body), List.map_map]
  · rfl
  · intro t ht
    obtain ⟨term, hterm, rfl⟩ := List.mem_map.mp ht
    exact isTerm_cleanTerm_iff.mpr fun harrow => h term ⟨hterm, harrow⟩

/-- **Splitting, writing out and splitting again.**  Terms are always clean.  Written out with spaced
arrows they are split into the same terms if and only if no arrow is torn; if one is, there are more
terms then.  And layout characters may come and go anywhere but between a hyphen and a `>`. -/
theorem terms_normalize (body : List Char) :
    (∀ t ∈ terms body, IsClean t) ∧
    (terms (normalize (terms body)).toList = terms body ↔ ¬ Torn body) ∧
    (Torn body → (terms body).length < (terms (normalize (terms body)).toList).length) ∧
    ∀ body', Relaid body body' → terms body' = terms body := by
  refine ⟨fun t => isClean_of_mem_terms, ⟨fun hsame htorn => ?_, terms_normalize_of_not_torn⟩,
    length_terms_normalize, fun body' => Relaid.terms_eq⟩
  have hmore := length_terms_normalize htorn
  rw [hsame] at hmore
  exact lt_irrefl _ hmore

/-- Three layout characters tear an arrow apart: a term holds an arrow then, and becomes two.  The
same characters around an arrow that is whole do not count. -/
theorem terms_normalize_sample :
    let torn := "Int -\r\n\t> -> Char".toList
    let whole := "Int ->\t - > Char".toList
    Torn torn ∧ (terms torn).length < (terms (normalize (terms torn)).toList).length ∧
      terms (normalize (terms whole)).toList = terms whole ∧
      terms "Int -> - > Char".toList = terms whole := by
  intro torn whole
  have htorn : Torn torn :=
    ⟨"Int ".toList, "\r\n\t".toList, " -> Char".toList, by decide,
      List.all_eq_true.mp (by decide), by decide⟩
  have hwhole : ¬ Torn whole := by
    rw [torn_iff]
    decide +kernel
  have hrelaid : Relaid whole "Int -> - > Char".toList :=
    @Relaid.delete whole "Int ->".toList " - > Char".toList '\t' .same (by decide) (by decide +kernel)
  exact ⟨htorn, (terms_normalize torn).2.2.1 htorn, (terms_normalize whole).2.1.mpr hwhole,
    (terms_normalize whole).2.2.2 _ hrelaid⟩

end SignatureSearch.Signature
