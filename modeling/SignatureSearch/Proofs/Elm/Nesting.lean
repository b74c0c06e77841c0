/-
# `Proofs.Elm.Nesting` — comments and trivia, read from the left

The end of a block comment is found by jumping from delimiter to delimiter.
The same comments are said here by a reader that looks at one place at a time
and keeps the nesting depth:

    {-      one deeper, two characters on
    -}      one less deep, two characters on; at depth zero the comment ends
    else    one character on

`Closes d cs` holds if this reader, started at depth `d`, is back at depth zero
for the first time at the very end of `cs`.  `closeComment` obeys the same
rules (`closeComment_opening`, `closeComment_closing`, `closeComment_char`), so
that the two agree (`closeComment_eq_some_iff`).

On top of it stand the two kinds of comments (`comment?_eq_some_iff`) and
`Trivia`, the blanks and comments between tokens.  A text that is skipped as
trivia need not be `Trivia`: a line comment may reach to the end of the text.
It is as soon as something follows (`exists_trivia`), and this is why a header
that is read holds only line comments with their line break.
-/
import SignatureSearch.Elm.Comment
import SignatureSearch.Elm.Lexical
import SignatureSearch.Proofs.Text.Words

namespace SignatureSearch.Elm

open Text

/-! ## Nesting -/

/-- Read from the left at depth `d`, the text is back at depth zero for the first time at its
very end. -/
inductive Closes : Nat → List Char → Prop
  | last : Closes 1 closing
  | closing {d : Nat} {cs : List Char} : Closes (d + 1) cs → Closes (d + 2) (closing ++ cs)
  | opening {d : Nat} {cs : List Char} : Closes (d + 2) cs → Closes (d + 1) (opening ++ cs)
  | char {d : Nat} {c : Char} {cs : List Char} :
      ¬ Elm.opening <+: c :: cs → ¬ Elm.closing <+: c :: cs → Closes (d + 1) cs →
      Closes (d + 1) (c :: cs)

/-- A block comment whose nesting first closes at its very end. -/
def BlockComment (text : List Char) : Prop :=
  ∃ inside, text = opening ++ inside ∧ Closes 1 inside

theorem not_closing_prefix_opening (cs : List Char) : ¬ closing <+: opening ++ cs := by
  intro h
  exact absurd (List.cons_prefix_cons.mp h).1 (by decide)

/-! ## The three rules, for the reader that jumps -/

theorem nextDelimiter?_closing (cs : List Char) :
    nextDelimiter? (closing ++ cs) = some (.closing, closing, cs) := by
  rw [nextDelimiter?, cut_of_prefix]
  cases cut opening (closing ++ cs) with
  | none => rfl
  | some found => rfl

/-- An opening delimiter counts only if a closing one is still to come. -/
theorem nextDelimiter?_opening (cs : List Char) :
    nextDelimiter? (opening ++ cs) =
      (cut closing (opening ++ cs)).map fun _ => (.opening, opening, cs) := by
  rw [nextDelimiter?, cut_of_prefix]
  cases hc : cut closing (opening ++ cs) with
  | none => rfl
  | some found =>
      obtain ⟨before, after⟩ := found
      have hpos : 0 < before.length := by
        cases before with
        | nil =>
            refine absurd ?_ (not_closing_prefix_opening cs)
            exact (firstPlace_nil_iff.mp (cut_eq_some_iff.mp hc)).2
        | cons c before => simp
      simp [hpos]

theorem nextDelimiter?_char {c : Char} {cs : List Char}
    (ho : ¬ opening <+: c :: cs) (hc : ¬ closing <+: c :: cs) :
    nextDelimiter? (c :: cs) =
      (nextDelimiter? cs).map fun (d, upTo, after) => (d, c :: upTo, after) := by
  rw [nextDelimiter?, nextDelimiter?, cut_cons ho, cut_cons hc]
  cases cut closing cs with
  | none => rfl
  | some foundClosing =>
      cases cut opening cs with
      | none => rfl
      | some foundOpening =>
          obtain ⟨bc, ac⟩ := foundClosing
          obtain ⟨bo, ao⟩ := foundOpening
          by_cases h : bo.length < bc.length <;> simp [h]

theorem closeComment_eq (outer : Nat) (cs : List Char) :
    closeComment outer cs =
      match nextDelimiter? cs, outer with
      | none, _ => none
      | some (.opening, upTo, after), outer =>
          (closeComment (outer + 1) after).map fun (inside, rest) => (upTo ++ inside, rest)
      | some (.closing, upTo, after), 0 => some (upTo, after)
      | some (.closing, upTo, after), outer + 1 =>
          (closeComment outer after).map fun (inside, rest) => (upTo ++ inside, rest) := by
  rw [closeComment]
  split
  · rename_i h
    simp only [h]
  · rename_i h
    simp only [h]
  · rename_i h
    simp only [h]
    cases outer <;> rfl

theorem closeComment_closing_zero (cs : List Char) :
    closeComment 0 (closing ++ cs) = some (closing, cs) := by
  rw [closeComment_eq, nextDelimiter?_closing]

theorem closeComment_closing (outer : Nat) (cs : List Char) :
    closeComment (outer + 1) (closing ++ cs) =
      (closeComment outer cs).map fun (inside, rest) => (closing ++ inside, rest) := by
  rw [closeComment_eq, nextDelimiter?_closing]

theorem closeComment_of_no_closing {outer : Nat} {cs : List Char} (h : ¬ closing <:+: cs) :
    closeComment outer cs = none := by
  rw [closeComment_eq, nextDelimiter?, cut_eq_none_iff.mpr h]

theorem closeComment_opening (outer : Nat) (cs : List Char) :
    closeComment outer (opening ++ cs) =
      (closeComment (outer + 1) cs).map fun (inside, rest) => (opening ++ inside, rest) := by
  rw [closeComment_eq, nextDelimiter?_opening]
  cases hc : cut closing (opening ++ cs) with
  | none =>
      -- The jump gives up here; one place further there is no closing delimiter either.
      have hcs : ¬ closing <:+: cs := fun hi =>
        cut_eq_none_iff.mp hc (hi.trans (List.suffix_append _ _).isInfix)
      rw [closeComment_of_no_closing hcs]
      rfl
  | some found => rfl

theorem closeComment_char {c : Char} {cs : List Char} (outer : Nat)
    (ho : ¬ opening <+: c :: cs) (hc : ¬ closing <+: c :: cs) :
    closeComment outer (c :: cs) =
      (closeComment outer cs).map fun (inside, rest) => (c :: inside, rest) := by
  rw [closeComment_eq, closeComment_eq outer cs, nextDelimiter?_char ho hc]
  cases nextDelimiter? cs with
  | none => rfl
  | some found =>
      obtain ⟨d, upTo, after⟩ := found
      cases d with
      | opening => simp only [Option.map_some, Option.map_map]; rfl
      | closing =>
          cases outer with
          | zero => rfl
          | succ outer => simp only [Option.map_some, Option.map_map]; rfl

/-! ## The two readers agree -/

theorem closeComment_of_closes {d : Nat} {text : List Char} (h : Closes d text) :
    ∀ (outer : Nat) (rest : List Char), d = outer + 1 →
      closeComment outer (text ++ rest) = some (text, rest) := by
  induction h with
  | last =>
      intro outer rest hd
      obtain rfl : 0 = outer := Nat.succ.inj hd
      exact closeComment_closing_zero rest
  | @closing d cs _ ih =>
      intro outer rest hd
      obtain rfl : d + 1 = outer := Nat.succ.inj hd
      rw [List.append_assoc, closeComment_closing, ih d rest rfl]
      rfl
  | @opening d cs _ ih =>
      intro outer rest hd
      obtain rfl : d = outer := Nat.succ.inj hd
      rw [List.append_assoc, closeComment_opening, ih (d + 1) rest rfl]
      rfl
  | @char d c cs ho hc hcs ih =>
      intro outer rest hd
      have hlen : 2 ≤ (c :: cs).length := by
        cases hcs <;> simp [closing, opening]
      have ho' : ¬ opening <+: c :: (cs ++ rest) := fun h =>
        ho (List.prefix_of_prefix_length_le h (List.prefix_append (c :: cs) rest) hlen)
      have hc' : ¬ closing <+: c :: (cs ++ rest) := fun h =>
        hc (List.prefix_of_prefix_length_le h (List.prefix_append (c :: cs) rest) hlen)
      rw [List.cons_append, closeComment_char outer ho' hc', ih outer rest hd]
      rfl

theorem closes_of_closeComment {cs : List Char} : ∀ {outer : Nat} {text rest : List Char},
    closeComment outer cs = some (text, rest) → Closes (outer + 1) text := by
  induction hn : cs.length using Nat.strong_induction_on generalizing cs with
  | _ n ih =>
      intro outer text rest h
      by_cases ho : opening <+: cs
      · obtain ⟨tail, rfl⟩ := ho
        rw [closeComment_opening, Option.map_eq_some_iff] at h
        obtain ⟨⟨inside, rest'⟩, hi, heq⟩ := h
        obtain ⟨rfl, rfl⟩ := Prod.mk.inj heq
        have hlt : tail.length < n := by
          rw [← hn, List.length_append]
          exact Nat.lt_add_of_pos_left (by decide)
        exact .opening (ih _ hlt rfl hi)
      by_cases hc : closing <+: cs
      · obtain ⟨tail, rfl⟩ := hc
        cases outer with
        | zero =>
            rw [closeComment_closing_zero] at h
            obtain ⟨rfl, rfl⟩ := Prod.mk.inj (Option.some.inj h)
            exact .last
        | succ outer =>
            rw [closeComment_closing, Option.map_eq_some_iff] at h
            obtain ⟨⟨inside, rest'⟩, hi, heq⟩ := h
            obtain ⟨rfl, rfl⟩ := Prod.mk.inj heq
            have hlt : tail.length < n := by
              rw [← hn, List.length_append]
              exact Nat.lt_add_of_pos_left (by decide)
            exact .closing (ih _ hlt rfl hi)
      cases cs with
      | nil =>
          have hno : ¬ closing <:+: [] := by simp [closing]
          rw [closeComment_of_no_closing hno] at h
          exact absurd h (by simp)
      | cons c tail =>
          rw [closeComment_char outer ho hc, Option.map_eq_some_iff] at h
          obtain ⟨⟨inside, rest'⟩, hi, heq⟩ := h
          obtain ⟨rfl, rfl⟩ := Prod.mk.inj heq
          have happ := append_of_closeComment hi
          have hlt : tail.length < n := by
            rw [← hn]
            simp
          have hpre : c :: inside <+: c :: tail := by
            rw [happ]
            exact List.prefix_append (c :: inside) rest'
          exact .char (fun hp => ho (hp.trans hpre)) (fun hp => hc (hp.trans hpre))
            (ih _ hlt rfl hi)

/-- The reader that jumps and the reader that looks at every place find the same end. -/
theorem closeComment_eq_some_iff {outer : Nat} {cs text rest : List Char} :
    closeComment outer cs = some (text, rest) ↔ cs = text ++ rest ∧ Closes (outer + 1) text := by
  constructor
  · intro h
    exact ⟨append_of_closeComment h, closes_of_closeComment h⟩
  · rintro ⟨rfl, h⟩
    exact closeComment_of_closes h outer rest rfl

theorem blockComment?_eq_some_iff {cs text rest : List Char} :
    blockComment? cs = some (text, rest) ↔ cs = text ++ rest ∧ BlockComment text := by
  constructor
  · intro h
    rw [blockComment?] at h
    split at h
    · exact absurd h (by simp)
    · rename_i inside hi
      obtain ⟨⟨t, r⟩, ht, heq⟩ := Option.map_eq_some_iff.mp h
      obtain ⟨rfl, rfl⟩ := Prod.mk.inj heq
      obtain ⟨rfl, hcl⟩ := closeComment_eq_some_iff.mp ht
      refine ⟨?_, t, rfl, hcl⟩
      rw [append_of_isPrefixOf? hi, List.append_assoc]
  · rintro ⟨rfl, inside, rfl, hcl⟩
    rw [blockComment?, List.append_assoc, isPrefixOf?_append]
    have hi : closeComment 0 (inside ++ rest) = some (inside, rest) :=
      closeComment_eq_some_iff.mpr ⟨rfl, hcl⟩
    simp only [hi, Option.map_some]

/-! ## Line comments, and comments of either kind -/

/-- A line comment before `rest`: it reaches to the line break or to the end of the text. -/
structure LineComment (text rest : List Char) : Prop where
  dashes : ['-', '-'] <+: text
  inLine : '\n' ∉ text
  stops : rest = [] ∨ rest.head? = some '\n'

def CommentBefore (rest text : List Char) : Prop :=
  BlockComment text ∨ LineComment text rest

theorem BlockComment.head? {text : List Char} (h : BlockComment text) : text.head? = some '{' := by
  obtain ⟨inside, rfl, _⟩ := h
  rfl

theorem LineComment.head? {text rest : List Char} (h : LineComment text rest) :
    text.head? = some '-' := by
  obtain ⟨tail, rfl⟩ := h.dashes
  rfl

theorem lineComment?_eq_some_iff {cs text rest : List Char} :
    lineComment? cs = some (text, rest) ↔ cs = text ++ rest ∧ LineComment text rest := by
  rw [lineComment?]
  constructor
  · intro h
    split at h
    · rename_i hp
      obtain ⟨rfl, rfl⟩ := Prod.mk.inj (Option.some.inj h)
      have hrun := maximalRun_takeWhile (· != '\n') cs
      refine ⟨List.takeWhile_append_dropWhile.symm, ?_, fun hmem => ?_, ?_⟩
      · obtain ⟨tail, rfl⟩ := List.isPrefixOf_iff_prefix.mp hp
        exact ⟨tail.takeWhile (· != '\n'), rfl⟩
      · exact absurd (hrun.inside _ hmem) (by decide)
      · cases hd : cs.dropWhile (· != '\n') with
        | nil => exact Or.inl rfl
        | cons c tail =>
            have hc := hrun.stops c (by rw [hd]; rfl)
            have : c = '\n' := by simpa using hc
            exact Or.inr (by rw [this]; rfl)
    · exact absurd h (by simp)
  · rintro ⟨rfl, h⟩
    have hrun : MaximalRun (· != '\n') text rest := by
      refine ⟨fun c hc => ?_, fun c hc => ?_⟩
      · have : c ≠ '\n' := fun he => h.inLine (he ▸ hc)
        simpa using this
      · rcases h.stops with rfl | hr
        · exact absurd hc (by simp)
        · rw [hr] at hc
          obtain rfl := Option.mem_some.mp hc
          rfl
    have hp : ['-', '-'].isPrefixOf (text ++ rest) = true :=
      List.isPrefixOf_iff_prefix.mpr (h.dashes.trans (List.prefix_append _ _))
    rw [if_pos hp, hrun.takeWhile_eq, hrun.dropWhile_eq]

/-- `comment?` reads a comment of either kind; no text starts with both. -/
theorem comment?_eq_some_iff {cs text rest : List Char} :
    comment? cs = some (text, rest) ↔ cs = text ++ rest ∧ CommentBefore rest text := by
  rw [comment?, Option.or_eq_some_iff, blockComment?_eq_some_iff, lineComment?_eq_some_iff]
  constructor
  · rintro (⟨h, hb⟩ | ⟨_, h, hl⟩)
    · exact ⟨h, Or.inl hb⟩
    · exact ⟨h, Or.inr hl⟩
  · rintro ⟨h, hb | hl⟩
    · exact Or.inl ⟨h, hb⟩
    · refine Or.inr ⟨Option.eq_none_iff_forall_ne_some.mpr ?_, h, hl⟩
      rintro ⟨text', rest'⟩ hb
      obtain ⟨h', hb⟩ := blockComment?_eq_some_iff.mp hb
      have h₁ : cs.head? = some '-' := by rw [h, List.head?_append, hl.head?]; rfl
      have h₂ : cs.head? = some '{' := by rw [h', List.head?_append, hb.head?]; rfl
      rw [h₁] at h₂
      exact absurd h₂ (by decide)

theorem comment?_cons_eq_none {c : Char} (cs : List Char) (hb : c ≠ '{') (hd : c ≠ '-') :
    comment? (c :: cs) = none := by
  rw [Option.eq_none_iff_forall_ne_some]
  rintro ⟨text, rest⟩ h
  obtain ⟨h, hc⟩ := comment?_eq_some_iff.mp h
  have hhead : (c :: cs).head? = some c := rfl
  rw [h, List.head?_append] at hhead
  rcases hc with hc | hc
  · rw [hc.head?] at hhead
    exact hb (Option.some.inj hhead).symm
  · rw [hc.head?] at hhead
    exact hd (Option.some.inj hhead).symm

/-! ## Trivia -/

/-- Blanks, closed block comments and line comments with their line break, in any order. -/
inductive Trivia : List Char → Prop
  | nil : Trivia []
  | blank {c : Char} {t : List Char} : isBlank c = true → Trivia t → Trivia (c :: t)
  | block {text t : List Char} : BlockComment text → Trivia t → Trivia (text ++ t)
  | line {text t : List Char} :
      ['-', '-'] <+: text → '\n' ∉ text → Trivia t → Trivia (text ++ '\n' :: t)

/-- What does not start with trivia. -/
structure Solid (cs : List Char) : Prop where
  notBlank : ∀ c ∈ cs.head?, isBlank c = false
  notComment : comment? cs = none

theorem solid_cons {c : Char} (cs : List Char) (hb : isBlank c = false) (h₁ : c ≠ '{')
    (h₂ : c ≠ '-') : Solid (c :: cs) where
  notBlank d hd := by
    obtain rfl := Option.mem_some.mp hd
    exact hb
  notComment := comment?_cons_eq_none cs h₁ h₂

theorem skipTrivia_eq (cs : List Char) :
    skipTrivia cs =
      match comment? (cs.dropWhile isBlank) with
      | none => cs.dropWhile isBlank
      | some (_, rest) => skipTrivia rest := by
  rw [skipTrivia]
  split
  · rename_i h
    simp only [h]
  · rename_i h
    simp only [h]

theorem skipTrivia_blank {c : Char} (hc : isBlank c = true) (cs : List Char) :
    skipTrivia (c :: cs) = skipTrivia cs := by
  rw [skipTrivia_eq, skipTrivia_eq cs, List.dropWhile_cons, if_pos hc]

theorem dropWhile_eq_self {cs : List Char} (hb : ∀ c ∈ cs.head?, isBlank c = false) :
    cs.dropWhile isBlank = cs := by
  have hrun : MaximalRun isBlank [] cs := ⟨fun _ h => absurd h List.not_mem_nil, hb⟩
  exact hrun.dropWhile_eq

theorem skipTrivia_of_solid {cs : List Char} (h : Solid cs) : skipTrivia cs = cs := by
  rw [skipTrivia_eq, dropWhile_eq_self h.notBlank, h.notComment]

theorem skipTrivia_nil : skipTrivia [] = [] :=
  skipTrivia_of_solid ⟨by simp, rfl⟩

theorem skipTrivia_comment {text rest : List Char} (h : CommentBefore rest text) :
    skipTrivia (text ++ rest) = skipTrivia rest := by
  have hb : ∀ c ∈ (text ++ rest).head?, isBlank c = false := by
    intro c hc
    rcases h with h | h
    · rw [List.head?_append, h.head?] at hc
      obtain rfl := Option.mem_some.mp hc
      decide
    · rw [List.head?_append, h.head?] at hc
      obtain rfl := Option.mem_some.mp hc
      decide
  rw [skipTrivia_eq, dropWhile_eq_self hb, comment?_eq_some_iff.mpr ⟨rfl, h⟩]

theorem skipTrivia_append {t : List Char} (ht : Trivia t) (rest : List Char) :
    skipTrivia (t ++ rest) = skipTrivia rest := by
  induction ht with
  | nil => rfl
  | blank hc _ ih => rw [List.cons_append, skipTrivia_blank hc, ih]
  | block hb _ ih => rw [List.append_assoc, skipTrivia_comment (Or.inl hb), ih]
  | line hd hn _ ih =>
      rw [List.append_assoc, skipTrivia_comment (Or.inr ⟨hd, hn, Or.inr rfl⟩), List.cons_append,
        skipTrivia_blank (by decide), ih]

theorem Trivia.gap_append {gap t : List Char} (hg : ∀ c ∈ gap, isBlank c = true)
    (ht : Trivia t) : Trivia (gap ++ t) := by
  induction gap with
  | nil => exact ht
  | cons c gap ih =>
      exact .blank (hg c List.mem_cons_self) (ih fun d hd => hg d (List.mem_cons_of_mem _ hd))

theorem Trivia.append {t t' : List Char} (ht : Trivia t) (ht' : Trivia t') : Trivia (t ++ t') := by
  induction ht with
  | nil => exact ht'
  | blank hc _ ih => exact .blank hc ih
  | block hb _ ih => rw [List.append_assoc]; exact .block hb ih
  | line hd hn _ ih => rw [List.append_assoc]; exact .line hd hn ih

/-- What is skipped is trivia, provided that something is left.  Otherwise the text may end in a
line comment. -/
theorem exists_trivia {cs : List Char} : skipTrivia cs ≠ [] →
    ∃ t, Trivia t ∧ cs = t ++ skipTrivia cs := by
  induction hn : cs.length using Nat.strong_induction_on generalizing cs with
  | _ n ih =>
      intro hne
      obtain ⟨gap, tail, rfl, hgap⟩ := exists_maximalRun isBlank cs
      have hskip := skipTrivia_append (.gap_append hgap.inside .nil) tail
      rw [List.append_nil] at hskip
      rw [hskip] at hne ⊢
      cases hc : comment? tail with
      | none =>
          rw [skipTrivia_of_solid ⟨hgap.stops, hc⟩]
          exact ⟨gap, by simpa using Trivia.gap_append hgap.inside .nil, rfl⟩
      | some found =>
          obtain ⟨text, rest⟩ := found
          obtain ⟨rfl, hcom⟩ := comment?_eq_some_iff.mp hc
          rw [skipTrivia_comment hcom] at hne ⊢
          have hlt : rest.length < n := by
            have := length_of_comment? hc
            rw [← hn]
            simp only [List.length_append] at this ⊢
            omega
          rcases hcom with hb | hl
          · obtain ⟨t, ht, hrest⟩ := ih _ hlt rfl hne
            refine ⟨gap ++ (text ++ t), .gap_append hgap.inside (.block hb ht), ?_⟩
            rw [List.append_assoc, List.append_assoc, ← hrest]
          · -- Something is left, so that the rest is not empty and starts with the line break.
            cases rest with
            | nil => exact absurd skipTrivia_nil hne
            | cons c rest =>
                obtain rfl : c = '\n' := by simpa using hl.stops
                rw [skipTrivia_blank (by decide)] at hne ⊢
                have hlt' : rest.length < n := Nat.lt_of_succ_lt hlt
                obtain ⟨t, ht, hrest⟩ := ih _ hlt' rfl hne
                refine ⟨gap ++ (text ++ '\n' :: t),
                  .gap_append hgap.inside (.line hl.dashes hl.inLine ht), ?_⟩
                rw [List.append_assoc, List.append_assoc, List.cons_append, ← hrest]

theorem Trivia.head {t : List Char} (ht : Trivia t) :
    ∀ c ∈ t.head?, isBlank c = true ∨ c = '{' ∨ c = '-' := by
  intro c hc
  cases ht with
  | nil => exact absurd hc (by simp)
  | blank hb _ =>
      obtain rfl := Option.mem_some.mp hc
      exact Or.inl hb
  | block hb _ =>
      rw [List.head?_append, hb.head?] at hc
      exact Or.inr (Or.inl (Option.mem_some.mp hc).symm)
  | line hd hn _ =>
      have hl : LineComment _ ['\n'] := ⟨hd, hn, Or.inr rfl⟩
      rw [List.head?_append, hl.head?] at hc
      exact Or.inr (Or.inr (Option.mem_some.mp hc).symm)

end SignatureSearch.Elm
