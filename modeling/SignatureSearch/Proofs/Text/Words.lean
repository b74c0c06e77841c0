/-
# `Proofs.Text.Words` — the words of a text, and what is made of them

`Words cs ws` says what the words of a text are without computing them: gaps of
blank characters and maximal runs of other characters take turns, and the runs
are the words.  `words` computes exactly these (`words_eq_iff`), so that

* a collapsed text is its words with one space between two of them
  (`collapse_eq_iff`);
* a squeezed text is the text without its blank characters
  (`squeeze_eq_filter`).

The class of blank characters is small: `mem_blanks` lists it, and what has to
hold of every blank character is checked on the list.
-/
import SignatureSearch.Proofs.Text.FirstPlace
import SignatureSearch.Text.Blank

namespace SignatureSearch.Text

/-! ## The blank characters, one by one -/

def blanks : List Char :=
  (List.range' 0x9 5 ++ List.range' 0x1C 5 ++ [0x85, 0xA0, 0x1680] ++ List.range' 0x2000 11 ++
    [0x2028, 0x2029, 0x202F, 0x205F, 0x3000]).map Char.ofNat

theorem mem_blanks {c : Char} (h : isBlank c = true) : c ∈ blanks := by
  rw [← Char.ofNat_toNat c]
  apply List.mem_map_of_mem
  simp only [isBlank, isWhiteSpace, Bool.or_eq_true, Bool.and_eq_true, decide_eq_true_eq,
    beq_iff_eq] at h
  simp only [List.mem_append, List.mem_range'_1, List.mem_cons, List.not_mem_nil, or_false]
  omega

/-! ## Words -/

/-- `ws` are the words of `cs`: the maximal runs of characters that are not blank, in order. -/
inductive Words : List Char → List (List Char) → Prop
  | gap {gap : List Char} : (∀ c ∈ gap, isBlank c = true) → Words gap []
  | word {gap word rest : List Char} {ws : List (List Char)} :
      (∀ c ∈ gap, isBlank c = true) → word ≠ [] →
      MaximalRun (fun c => !isBlank c) word rest → Words rest ws →
      Words (gap ++ word ++ rest) (word :: ws)

theorem words_blank {c : Char} (hc : isBlank c = true) (cs : List Char) :
    words (c :: cs) = words cs := by
  simp [words, leadingWord, hc]

theorem words_gap_append {gap : List Char} (hg : ∀ c ∈ gap, isBlank c = true) (cs : List Char) :
    words (gap ++ cs) = words cs := by
  induction gap with
  | nil => rfl
  | cons c gap ih =>
      rw [List.cons_append, words_blank (hg c List.mem_cons_self)]
      exact ih fun d hd => hg d (List.mem_cons_of_mem _ hd)

theorem leadingWord_of_stop {cs : List Char} (h : ∀ c ∈ cs.head?, (!isBlank c) = false) :
    leadingWord cs = ([], words cs) := by
  cases cs with
  | nil => rfl
  | cons c cs =>
      have hc : isBlank c = true := by simpa using h c rfl
      rw [words_blank hc]
      simp [leadingWord, words, hc]

theorem leadingWord_append {run : List Char} (hr : ∀ c ∈ run, (!isBlank c) = true)
    (cs : List Char) :
    leadingWord (run ++ cs) = (run ++ (leadingWord cs).1, (leadingWord cs).2) := by
  induction run with
  | nil => rfl
  | cons c run ih =>
      have hc : isBlank c = false := by simpa using hr c List.mem_cons_self
      rw [List.cons_append, leadingWord, ih fun d hd => hr d (List.mem_cons_of_mem _ hd)]
      simp [hc]

theorem words_word_append {word rest : List Char} (hne : word ≠ [])
    (hw : MaximalRun (fun c => !isBlank c) word rest) :
    words (word ++ rest) = word :: words rest := by
  rw [words, leadingWord_append hw.inside, leadingWord_of_stop hw.stops]
  simp [hne]

theorem words_gap {gap : List Char} (hg : ∀ c ∈ gap, isBlank c = true) : words gap = [] := by
  have h := words_gap_append hg []
  rwa [List.append_nil] at h

theorem words_spec (cs : List Char) : Words cs (words cs) := by
  -- A gap and a word are taken off the front at a time.
  induction hn : cs.length using Nat.strong_induction_on generalizing cs with
  | _ n ih =>
      obtain ⟨gap, tail, rfl, hgap⟩ := exists_maximalRun isBlank cs
      cases tail with
      | nil =>
          rw [List.append_nil, words_gap hgap.inside]
          exact .gap hgap.inside
      | cons c tail =>
          obtain ⟨word, rest, hs, hword⟩ := exists_maximalRun (fun c => !isBlank c) (c :: tail)
          have hne : word ≠ [] := by
            rintro rfl
            obtain rfl : c :: tail = rest := hs
            have h₁ : isBlank c = false := hgap.stops c rfl
            have h₂ : (!isBlank c) = false := hword.stops c rfl
            rw [h₁] at h₂
            exact Bool.noConfusion h₂
          have hlt : rest.length < n := by
            have := List.length_pos_iff.mpr hne
            rw [hs] at hn
            simp only [List.length_append] at hn
            omega
          rw [hs, words_gap_append hgap.inside, words_word_append hne hword, ← List.append_assoc]
          exact .word hgap.inside hne hword (ih _ hlt _ rfl)

theorem words_eq_iff {cs : List Char} {ws : List (List Char)} : words cs = ws ↔ Words cs ws := by
  constructor
  · rintro rfl
    exact words_spec cs
  · intro h
    induction h with
    | gap hg => exact words_gap hg
    | word hg hne hw _ ih =>
        rw [List.append_assoc, words_gap_append hg, words_word_append hne hw, ih]

theorem Words.ne_nil {cs : List Char} {ws : List (List Char)} (h : Words cs ws) :
    ∀ w ∈ ws, w ≠ [] := by
  induction h with
  | gap _ => exact fun _ hw => absurd hw List.not_mem_nil
  | word _ hne _ _ ih =>
      intro w hw
      rcases List.mem_cons.mp hw with rfl | hw
      · exact hne
      · exact ih w hw

/-! ## Collapsed and squeezed texts -/

/-- `out` is `cs` trimmed, with one space in place of every inner run of blanks. -/
def Collapses (cs out : List Char) : Prop :=
  ∃ ws, Words cs ws ∧ out = [' '].intercalate ws

theorem collapse_eq_iff {cs out : List Char} : collapse cs = out ↔ Collapses cs out := by
  constructor
  · rintro rfl
    exact ⟨words cs, words_spec cs, rfl⟩
  · rintro ⟨ws, hws, rfl⟩
    rw [collapse, words_eq_iff.mpr hws]

theorem squeeze_eq_filter (cs : List Char) : squeeze cs = cs.filter fun c => !isBlank c := by
  have h : ∀ cs : List Char,
      (leadingWord cs).1 ++ (leadingWord cs).2.flatten = cs.filter fun c => !isBlank c := by
    intro cs
    induction cs with
    | nil => rfl
    | cons c cs ih =>
        rw [← List.singleton_append, List.filter_append, ← ih]
        cases hc : isBlank c with
        | true => by_cases hw : (leadingWord cs).1 = [] <;> simp [leadingWord, hc, hw]
        | false => simp [leadingWord, hc]
  rw [← h cs, squeeze, words]
  by_cases hw : (leadingWord cs).1 = [] <;> simp [hw]

end SignatureSearch.Text
