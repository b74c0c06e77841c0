/-
# `Proofs.Elm.CommentEnd` — where a block comment ends, said by a scanner

A scanner goes through a text from the left, place by place, and counts how
many comments are open:

    {-      two characters on, one comment more
    -}      two characters on, one comment less
    else    one character on

It starts with none.  From an opening delimiter on there are two ways for it to
go: at some offset no comment is open any more, for the first time (`ClosesAt`),
or the end of the text is reached with some of them open (`RunsOut`).

`blockComment?` does not look at every place; it jumps from delimiter to
delimiter, and the next opening and the next closing one are searched for
independently of each other.  Both come to the same (`commentEnd?_scans`): a
comment ends where the scanner closes it, and there is none just if the scanner
runs out of text.  The step of the proof is `scans_closeComment`, by the three
rules that `closeComment` obeys.
-/
import Mathlib.Logic.Function.Iterate
import Mathlib.Tactic.IntervalCases
import SignatureSearch.Proofs.Elm.Nesting

namespace SignatureSearch.Elm

/-- Where the scanner stands, and how many comments are open there. -/
structure Scan where
  offset : Nat
  depth : Int
deriving DecidableEq, Repr

namespace Scan

variable {text : List Char} {start e : Nat} {s : Scan}

def step (text : List Char) (s : Scan) : Scan :=
  if opening <+: text.drop s.offset then ⟨s.offset + 2, s.depth + 1⟩
  else if closing <+: text.drop s.offset then ⟨s.offset + 2, s.depth - 1⟩
  else ⟨s.offset + 1, s.depth⟩

/-- The scanner after some steps from an offset where no comment is open. -/
def after (text : List Char) (start n : Nat) : Scan :=
  (step text)^[n] ⟨start, 0⟩

/-- No comment is open at `e`, for the first time since the start. -/
def ClosesAt (text : List Char) (start e : Nat) : Prop :=
  ∃ n, 0 < n ∧ after text start n = ⟨e, 0⟩ ∧
    ∀ k, 0 < k → k < n → (after text start k).depth ≠ 0

/-- The end of the text is reached with a comment open, and one was open all the time. -/
def RunsOut (text : List Char) (start : Nat) : Prop :=
  ∃ n, (after text start n).offset = text.length ∧ 0 < (after text start n).depth ∧
    ∀ k, 0 < k → k ≤ n → (after text start k).depth ≠ 0

/-! ## Steps -/

theorem step_of_opening {i : Nat} (d : Int) (h : opening <+: text.drop i) :
    step text ⟨i, d⟩ = ⟨i + 2, d + 1⟩ :=
  if_pos h

theorem step_of_closing {i : Nat} (d : Int) (h : closing <+: text.drop i) :
    step text ⟨i, d⟩ = ⟨i + 2, d - 1⟩ := by
  have ho : ¬ opening <+: text.drop i := by
    intro ho
    obtain ⟨rest, hrest⟩ := ho
    exact not_closing_prefix_opening rest (hrest ▸ h)
  exact (if_neg ho).trans (if_pos h)

theorem step_of_char {i : Nat} (d : Int) (ho : ¬ opening <+: text.drop i)
    (hc : ¬ closing <+: text.drop i) : step text ⟨i, d⟩ = ⟨i + 1, d⟩ :=
  (if_neg ho).trans (if_neg hc)

theorem depth_le_step (text : List Char) (s : Scan) : s.depth - 1 ≤ (step text s).depth := by
  unfold step
  split
  · show s.depth - 1 ≤ s.depth + 1
    omega
  · split
    · exact Int.le_refl _
    · show s.depth - 1 ≤ s.depth
      omega

theorem after_succ (text : List Char) (start n : Nat) :
    after text start (n + 1) = step text (after text start n) :=
  Function.iterate_succ_apply' _ _ _

theorem depth_iterate_of_length_le (h : text.length ≤ s.offset) (n : Nat) :
    ((step text)^[n] s).depth = s.depth := by
  induction n generalizing s with
  | zero => rfl
  | succ n ih =>
      have hdrop : text.drop s.offset = [] := List.drop_eq_nil_of_le h
      have hstep : step text s = ⟨s.offset + 1, s.depth⟩ :=
        step_of_char s.depth (by rw [hdrop]; decide) (by rw [hdrop]; decide)
      rw [Function.iterate_succ_apply, hstep]
      exact ih (Nat.le_succ_of_le h)

/-! ## At most one way to go -/

theorem ClosesAt.unique {e' : Nat} (h : ClosesAt text start e) (h' : ClosesAt text start e') :
    e = e' := by
  obtain ⟨n, hpos, hn, hopen⟩ := h
  obtain ⟨m, hpos', hm, hopen'⟩ := h'
  rcases Nat.lt_trichotomy n m with hlt | rfl | hlt
  · exact absurd (congrArg depth hn) (hopen' n hpos hlt)
  · exact congrArg offset (hn.symm.trans hm)
  · exact absurd (congrArg depth hm) (hopen m hpos' hlt)

theorem ClosesAt.not_runsOut (h : ClosesAt text start e) : ¬ RunsOut text start := by
  rintro ⟨m, hend, hdepth, hopen⟩
  obtain ⟨n, hpos, hn, -⟩ := h
  rcases Nat.lt_or_ge m n with hlt | hle
  · obtain ⟨j, rfl⟩ := Nat.exists_eq_add_of_lt hlt
    have hlater : after text start (m + j + 1) = (step text)^[j + 1] (after text start m) := by
      rw [after, after, ← Function.iterate_add_apply, Nat.add_comm (j + 1), Nat.add_assoc]
    have hsame := depth_iterate_of_length_le (s := after text start m) hend.ge (j + 1)
    rw [← hlater, hn] at hsame
    exact absurd hsame (Int.ne_of_lt hdepth)
  · exact hopen n hpos hle (congrArg depth hn)

/-- While a comment is open, as many are open as have been opened and not closed. -/
theorem one_le_depth (h : opening <+: text.drop start) {n : Nat} (hpos : 0 < n)
    (hopen : ∀ k, 0 < k → k ≤ n → (after text start k).depth ≠ 0) :
    1 ≤ (after text start n).depth := by
  induction n with
  | zero => exact absurd hpos (Nat.lt_irrefl 0)
  | succ n ih =>
      rcases Nat.eq_zero_or_pos n with rfl | hn
      · have hfirst : after text start 1 = ⟨start + 2, 0 + 1⟩ := step_of_opening 0 h
        rw [hfirst]
        exact Int.le_refl _
      · have hbefore := ih hn fun k hk hle => hopen k hk (Nat.le_succ_of_le hle)
        have hnow := hopen (n + 1) hpos le_rfl
        have hstep := depth_le_step text (after text start n)
        rw [after_succ] at hnow ⊢
        omega

/-! ## From a place inside of a comment -/

/-- From `s` on, no comment is open at `e` for the first time. -/
def ClosesFrom (text : List Char) (s : Scan) (e : Nat) : Prop :=
  ∃ n, (step text)^[n] s = ⟨e, 0⟩ ∧ ∀ k < n, 1 ≤ ((step text)^[k] s).depth

/-- From `s` to the end of the text, a comment is open. -/
def OpenFrom (text : List Char) (s : Scan) : Prop :=
  ∃ n, ((step text)^[n] s).offset = text.length ∧ ∀ k ≤ n, 1 ≤ ((step text)^[k] s).depth

theorem closesFrom_of_step (hs : 1 ≤ s.depth) (h : ClosesFrom text (step text s) e) :
    ClosesFrom text s e := by
  obtain ⟨n, hn, hopen⟩ := h
  refine ⟨n + 1, hn, ?_⟩
  intro k hk
  cases k with
  | zero => exact hs
  | succ k => exact hopen k (Nat.lt_of_succ_lt_succ hk)

theorem openFrom_of_step (hs : 1 ≤ s.depth) (h : OpenFrom text (step text s)) :
    OpenFrom text s := by
  obtain ⟨n, hn, hopen⟩ := h
  refine ⟨n + 1, hn, ?_⟩
  intro k hk
  cases k with
  | zero => exact hs
  | succ k => exact hopen k (Nat.le_of_succ_le_succ hk)

/-- The scanner comes to what the search came to: the text of the comment from `s` on, with what
follows it, or nothing. -/
def Reaches (text : List Char) (s : Scan) : Option (List Char × List Char) → Prop
  | some (inside, _) => ClosesFrom text s (s.offset + inside.length)
  | none => OpenFrom text s

theorem reaches_of_step {skipped : List Char} {found : Option (List Char × List Char)}
    (hs : 1 ≤ s.depth) (hoffset : (step text s).offset = s.offset + skipped.length)
    (h : Reaches text (step text s) found) :
    Reaches text s (found.map fun (inside, rest) => (skipped ++ inside, rest)) := by
  cases found with
  | none => exact openFrom_of_step hs h
  | some found =>
      obtain ⟨inside, rest⟩ := found
      refine closesFrom_of_step hs ?_
      show ClosesFrom text _ (s.offset + (skipped ++ inside).length)
      rw [List.length_append, ← Nat.add_assoc, ← hoffset]
      exact h

theorem drop_add_two {delimiter tail : List Char} {i : Nat} (htwo : delimiter.length = 2)
    (h : delimiter ++ tail = text.drop i) : tail = text.drop (i + 2) := by
  rw [← List.drop_drop, ← h, ← htwo, List.drop_left]

/-- The jumps and the scanner agree, with `outer + 1` comments open. -/
theorem scans_closeComment (text : List Char) {cs : List Char} {i : Nat} (outer : Nat)
    (hcs : cs = text.drop i) (hi : i ≤ text.length) :
    Reaches text ⟨i, outer + 1⟩ (closeComment outer cs) := by
  induction hn : cs.length using Nat.strong_induction_on generalizing cs i outer with
  | _ n ih =>
      have hs : 1 ≤ (⟨i, outer + 1⟩ : Scan).depth := by
        show (1 : Int) ≤ outer + 1
        omega
      have hlength : i + cs.length = text.length := by
        rw [hcs, List.length_drop]
        omega
      by_cases ho : opening <+: cs
      · have hstep := step_of_opening (outer + 1) (hcs ▸ ho)
        obtain ⟨tail, rfl⟩ := ho
        have htail := drop_add_two rfl hcs
        rw [List.length_append, show opening.length = 2 from rfl] at hlength hn
        rw [closeComment_opening]
        refine reaches_of_step hs (congrArg offset hstep) ?_
        rw [hstep]
        exact ih tail.length (by omega) (outer + 1) htail (by omega) rfl
      by_cases hc : closing <+: cs
      · have hstep := step_of_closing (outer + 1) (hcs ▸ hc)
        obtain ⟨tail, rfl⟩ := hc
        have htail := drop_add_two rfl hcs
        rw [List.length_append, show closing.length = 2 from rfl] at hlength hn
        cases outer with
        | zero =>
            -- the last comment that is open ends here
            rw [closeComment_closing_zero]
            refine ⟨1, hstep, ?_⟩
            intro k hk
            obtain rfl : k = 0 := Nat.lt_one_iff.mp hk
            exact hs
        | succ outer =>
            rw [closeComment_closing]
            refine reaches_of_step hs (congrArg offset hstep) ?_
            have hdepth : ((outer + 1 : Nat) : Int) + 1 - 1 = outer + 1 := by omega
            rw [hstep, hdepth]
            exact ih tail.length (by omega) outer htail (by omega) rfl
      have hstep := step_of_char (outer + 1) (hcs ▸ ho) (hcs ▸ hc)
      cases cs with
      | nil =>
          have hnone : closeComment outer [] = none :=
            closeComment_of_no_closing (by decide)
          rw [hnone]
          refine ⟨0, hlength, ?_⟩
          intro k hk
          obtain rfl : k = 0 := Nat.le_zero.mp hk
          exact hs
      | cons c tail =>
          have htail : tail = text.drop (i + 1) := by
            rw [← List.drop_drop, ← hcs, List.drop_one, List.tail_cons]
          rw [List.length_cons] at hlength hn
          rw [closeComment_char outer ho hc]
          have hoffset : (step text ⟨i, outer + 1⟩).offset = i + [c].length := congrArg offset hstep
          refine reaches_of_step hs hoffset ?_
          rw [hstep]
          exact ih tail.length (by omega) outer htail (by omega) rfl

/-! ## From the start of a comment -/

theorem after_eq_of_opening (h : opening <+: text.drop start) (k : Nat) :
    after text start (k + 1) = (step text)^[k] ⟨start + 2, 1⟩ :=
  congrArg ((step text)^[k]) (step_of_opening 0 h)

theorem closesAt_of_closesFrom (h : opening <+: text.drop start)
    (hfrom : ClosesFrom text ⟨start + 2, 1⟩ e) : ClosesAt text start e := by
  obtain ⟨n, hn, hopen⟩ := hfrom
  refine ⟨n + 1, Nat.succ_pos n, (after_eq_of_opening h n).trans hn, ?_⟩
  intro k hpos hk
  obtain ⟨j, rfl⟩ := Nat.exists_eq_succ_of_ne_zero hpos.ne'
  have hj := hopen j (Nat.lt_of_succ_lt_succ hk)
  rw [← after_eq_of_opening h] at hj
  exact Int.ne_of_gt hj

theorem runsOut_of_openFrom (h : opening <+: text.drop start)
    (hfrom : OpenFrom text ⟨start + 2, 1⟩) : RunsOut text start := by
  obtain ⟨n, hn, hopen⟩ := hfrom
  rw [← after_eq_of_opening h] at hn
  have hdepth : ∀ k ≤ n, 1 ≤ (after text start (k + 1)).depth := by
    intro k hk
    rw [after_eq_of_opening h]
    exact hopen k hk
  refine ⟨n + 1, hn, hdepth n le_rfl, ?_⟩
  intro k hpos hk
  obtain ⟨j, rfl⟩ := Nat.exists_eq_succ_of_ne_zero hpos.ne'
  exact Int.ne_of_gt (hdepth j (Nat.le_of_succ_le_succ hk))

end Scan

/-! ## The end of a comment -/

open Scan

variable {text : List Char} {start e : Nat}

/-- The characters of a text from one offset up to another. -/
def between (text : List Char) (i j : Nat) : List Char :=
  (text.drop i).take (j - i)

/-- The offset just past the block comment that starts at an offset, if one does. -/
def commentEnd? (text : List Char) (start : Nat) : Option Nat :=
  (blockComment? (text.drop start)).map fun (comment, _) => start + comment.length

theorem between_add (text : List Char) (start n : Nat) :
    between text start (start + n) = (text.drop start).take n := by
  rw [between, Nat.add_sub_cancel_left]

theorem opening_prefix_of_between (h : between text start (start + 2) = opening) :
    opening <+: text.drop start := by
  rw [between_add] at h
  exact h ▸ List.take_prefix 2 _

theorem commentEnd?_eq_some_iff :
    commentEnd? text start = some e ↔
      ∃ comment, comment <+: text.drop start ∧ BlockComment comment ∧
        start + comment.length = e := by
  rw [commentEnd?, Option.map_eq_some_iff]
  constructor
  · rintro ⟨⟨comment, rest⟩, hfound, he⟩
    obtain ⟨htext, hcomment⟩ := blockComment?_eq_some_iff.mp hfound
    exact ⟨comment, htext ▸ List.prefix_append comment rest, hcomment, he⟩
  · rintro ⟨comment, ⟨rest, htext⟩, hcomment, he⟩
    exact ⟨(comment, rest), blockComment?_eq_some_iff.mpr ⟨htext.symm, hcomment⟩, he⟩

theorem BlockComment.four_le_length {comment : List Char} (h : BlockComment comment) :
    4 ≤ comment.length := by
  obtain ⟨inside, rfl, hcloses⟩ := h
  have hinside : 2 ≤ inside.length := by
    cases hcloses with
    | last => exact le_rfl
    | opening h => simp [Elm.opening]
    | char _ _ h => cases h <;> simp [Elm.closing, Elm.opening]
  rw [List.length_append]
  exact Nat.add_le_add le_rfl hinside

theorem commentEnd?_of_between {other : List Char} {start' : Nat}
    (h : commentEnd? text start = some e)
    (hsame : between other start' (start' + (e - start)) = between text start e) :
    commentEnd? other start' = some (start' + (e - start)) := by
  obtain ⟨comment, hpre, hcomment, rfl⟩ := commentEnd?_eq_some_iff.mp h
  rw [Nat.add_sub_cancel_left] at hsame ⊢
  rw [between_add, between_add, ← List.prefix_iff_eq_take.mp hpre] at hsame
  have hpre' : comment <+: other.drop start' := by
    have htake := List.take_prefix comment.length (other.drop start')
    rwa [hsame] at htake
  exact commentEnd?_eq_some_iff.mpr ⟨comment, hpre', hcomment, rfl⟩

theorem closesAt_or_runsOut (h : opening <+: text.drop start) :
    (∃ e, commentEnd? text start = some e ∧ ClosesAt text start e) ∨
      (commentEnd? text start = none ∧ RunsOut text start) := by
  obtain ⟨tail, htext⟩ := h
  have hpre : opening <+: text.drop start := htext ▸ List.prefix_append opening tail
  have hlength : start + 2 ≤ text.length := by
    have hdrop := congrArg List.length htext
    rw [List.length_append, List.length_drop, show opening.length = 2 from rfl] at hdrop
    omega
  have hreaches := scans_closeComment text 0 (drop_add_two rfl htext) hlength
  have hfound : blockComment? (text.drop start) =
      (closeComment 0 tail).map fun (inside, rest) => (opening ++ inside, rest) := by
    rw [← htext, blockComment?, Text.isPrefixOf?_append]
  rw [commentEnd?, hfound]
  cases hclose : closeComment 0 tail with
  | none =>
      rw [hclose] at hreaches
      exact Or.inr ⟨rfl, runsOut_of_openFrom hpre hreaches⟩
  | some found =>
      obtain ⟨inside, rest⟩ := found
      rw [hclose] at hreaches
      refine Or.inl ⟨start + (opening ++ inside).length, rfl, ?_⟩
      rw [List.length_append, ← Nat.add_assoc]
      exact closesAt_of_closesFrom hpre hreaches

/-- A block comment ends where the scanner has closed it, and does not end just if the scanner runs
out of text; up to there a comment is open.  The end stands at least four characters on, in the
text, and depends on nothing but the characters of the comment. -/
theorem commentEnd?_scans (h : between text start (start + 2) = opening) :
    (∀ e, commentEnd? text start = some e ↔ ClosesAt text start e) ∧
      (commentEnd? text start = none ↔ RunsOut text start) ∧
      (∀ n, 0 < n → (∀ k, 0 < k → k ≤ n → (after text start k).depth ≠ 0) →
        1 ≤ (after text start n).depth) ∧
      ∀ e, commentEnd? text start = some e →
        start + 4 ≤ e ∧ e ≤ text.length ∧
          ∀ other start', between other start' (start' + (e - start)) = between text start e →
            commentEnd? other start' = some (start' + (e - start)) := by
  have hpre := opening_prefix_of_between h
  refine ⟨?_, ?_, ?_, ?_⟩
  · intro e
    rcases closesAt_or_runsOut hpre with ⟨e', he', hcloses⟩ | ⟨hnone, hruns⟩
    · rw [he', Option.some.injEq]
      exact ⟨fun heq => heq ▸ hcloses, fun hcloses' => hcloses.unique hcloses'⟩
    · rw [hnone]
      exact ⟨(nomatch ·), fun hcloses => absurd hruns hcloses.not_runsOut⟩
  · rcases closesAt_or_runsOut hpre with ⟨e, he, hcloses⟩ | ⟨hnone, hruns⟩
    · rw [he]
      exact ⟨(nomatch ·), fun hruns => absurd hruns hcloses.not_runsOut⟩
    · exact ⟨fun _ => hruns, fun _ => hnone⟩
  · intro n hpos hopen
    exact one_le_depth hpre hpos hopen
  · intro e he
    obtain ⟨comment, hcomment, hblock, rfl⟩ := commentEnd?_eq_some_iff.mp he
    have hfour := hblock.four_le_length
    have hle := hcomment.length_le
    rw [List.length_drop] at hle
    refine ⟨by omega, by omega, ?_⟩
    intro other start' hsame
    exact commentEnd?_of_between he hsame

/-- Delimiters that overlap, in `a{-{-}-}-}-}`: the dash of an opening delimiter does not close the
comment together with the brace behind it. -/
theorem commentEnd?_scans_sample :
    between "a\x7b-\x7b-\x7d-\x7d-\x7d-\x7d".toList 1 3 = opening ∧
      ClosesAt "a\x7b-\x7b-\x7d-\x7d-\x7d-\x7d".toList 1 10 ∧
      commentEnd? "a\x7b-\x7b-\x7d-\x7d-\x7d-\x7d".toList 1 = some 10 ∧
      commentEnd? "\x7b-\x7b-\x7d-\x7d-\x7d".toList 0 = some 9 := by
  have hstart : between "a\x7b-\x7b-\x7d-\x7d-\x7d-\x7d".toList 1 3 = opening := by decide
  have hcloses : ClosesAt "a\x7b-\x7b-\x7d-\x7d-\x7d-\x7d".toList 1 10 := by
    refine ⟨5, by decide, by decide, ?_⟩
    intro k hpos hk
    interval_cases k <;> decide
  obtain ⟨hsome, -, -, hlocal⟩ := commentEnd?_scans hstart
  have hend := (hsome 10).mpr hcloses
  obtain ⟨-, -, hother⟩ := hlocal 10 hend
  exact ⟨hstart, hcloses, hend, hother "\x7b-\x7b-\x7d-\x7d-\x7d".toList 0 (by decide)⟩

end SignatureSearch.Elm
