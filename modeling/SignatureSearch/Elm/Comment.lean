/-
# `Elm.Comment` — comments and the trivia between tokens

Block comments nest.  The end of one is found by jumping from delimiter to
delimiter: of the next opening and the next closing one the earlier counts.  A
block comment that does not end is no comment.  A line comment reaches to the
line break, which is not a part of it.
-/
import SignatureSearch.Text.Blank
import SignatureSearch.Text.Search

namespace SignatureSearch.Elm

open Text

def opening : List Char := ['{', '-']

def closing : List Char := ['-', '}']

inductive Delimiter where
  | opening
  | closing
deriving DecidableEq, Repr

/-- The next delimiter, with the text up to its end and the text after it; none unless a closing
delimiter is still to come. -/
def nextDelimiter? (cs : List Char) : Option (Delimiter × List Char × List Char) :=
  match cut closing cs with
  | none => none
  | some (beforeClosing, afterClosing) =>
    match cut opening cs with
    | none => some (.closing, beforeClosing ++ closing, afterClosing)
    | some (beforeOpening, afterOpening) =>
      if beforeOpening.length < beforeClosing.length then
        some (.opening, beforeOpening ++ opening, afterOpening)
      else some (.closing, beforeClosing ++ closing, afterClosing)

theorem append_of_nextDelimiter? {cs upTo after : List Char} {d : Delimiter}
    (h : nextDelimiter? cs = some (d, upTo, after)) : cs = upTo ++ after ∧ 2 ≤ upTo.length := by
  unfold nextDelimiter? at h
  split at h
  · simp at h
  · rename_i hc
    have hc := append_of_cut hc
    split at h
    · simp only [Option.some.injEq, Prod.mk.injEq] at h
      obtain ⟨_, rfl, rfl⟩ := h
      exact ⟨hc, by simp [closing]⟩
    · rename_i ho
      have ho := append_of_cut ho
      split at h <;> simp only [Option.some.injEq, Prod.mk.injEq] at h <;>
        obtain ⟨_, rfl, rfl⟩ := h
      · exact ⟨ho, by simp [opening]⟩
      · exact ⟨hc, by simp [closing]⟩

theorem length_of_nextDelimiter? {cs upTo after : List Char} {d : Delimiter}
    (h : nextDelimiter? cs = some (d, upTo, after)) : after.length < cs.length := by
  obtain ⟨rfl, h₂⟩ := append_of_nextDelimiter? h
  simp only [List.length_append]
  omega

/-- The text up to the end of a block comment and the text after it, `outer` more comments being
open around it. -/
def closeComment (outer : Nat) (cs : List Char) : Option (List Char × List Char) :=
  match h : nextDelimiter? cs with
  | none => none
  | some (.opening, upTo, after) =>
    have := length_of_nextDelimiter? h
    (closeComment (outer + 1) after).map fun (inside, rest) => (upTo ++ inside, rest)
  | some (.closing, upTo, after) =>
    have := length_of_nextDelimiter? h
    match outer with
    | 0 => some (upTo, after)
    | outer + 1 => (closeComment outer after).map fun (inside, rest) => (upTo ++ inside, rest)
termination_by cs.length

def blockComment? (cs : List Char) : Option (List Char × List Char) :=
  match opening.isPrefixOf? cs with
  | none => none
  | some inside => (closeComment 0 inside).map fun (text, rest) => (opening ++ text, rest)

def lineComment? (cs : List Char) : Option (List Char × List Char) :=
  if ['-', '-'].isPrefixOf cs then some (cs.takeWhile (· != '\n'), cs.dropWhile (· != '\n'))
  else none

/-- The comment that a text starts with, and what follows it. -/
def comment? (cs : List Char) : Option (List Char × List Char) :=
  (blockComment? cs).or (lineComment? cs)

theorem append_of_closeComment {outer : Nat} {cs text rest : List Char}
    (h : closeComment outer cs = some (text, rest)) : cs = text ++ rest := by
  fun_induction closeComment outer cs generalizing text rest with
  | case1 => simp at h
  | case2 outer cs upTo after hd _ ih =>
    simp only [Option.map_eq_some_iff, Prod.mk.injEq, Prod.exists] at h
    obtain ⟨inside, r, hr, rfl, rfl⟩ := h
    rw [(append_of_nextDelimiter? hd).1, ih hr, List.append_assoc]
  | case3 cs upTo after hd _ =>
    simp only [Option.some.injEq, Prod.mk.injEq] at h
    obtain ⟨rfl, rfl⟩ := h
    exact (append_of_nextDelimiter? hd).1
  | case4 cs upTo after hd _ outer ih =>
    simp only [Option.map_eq_some_iff, Prod.mk.injEq, Prod.exists] at h
    obtain ⟨inside, r, hr, rfl, rfl⟩ := h
    rw [(append_of_nextDelimiter? hd).1, ih hr, List.append_assoc]

/-- A comment and what follows it make up the text, and a comment is not empty. -/
theorem append_of_comment? {cs text rest : List Char} (h : comment? cs = some (text, rest)) :
    cs = text ++ rest ∧ text ≠ [] := by
  simp only [comment?, Option.or_eq_some_iff] at h
  rcases h with h | ⟨_, h⟩
  · simp only [blockComment?] at h
    split at h
    · simp at h
    · rename_i inside hi
      simp only [Option.map_eq_some_iff, Prod.mk.injEq, Prod.exists] at h
      obtain ⟨t, r, ht, rfl, rfl⟩ := h
      refine ⟨?_, by simp [opening]⟩
      rw [append_of_isPrefixOf? hi, append_of_closeComment ht, List.append_assoc]
  · simp only [lineComment?] at h
    split at h
    · rename_i hp
      simp only [Option.some.injEq, Prod.mk.injEq] at h
      obtain ⟨rfl, rfl⟩ := h
      refine ⟨List.takeWhile_append_dropWhile.symm, ?_⟩
      cases cs with
      | nil => simp at hp
      | cons c cs =>
        simp only [List.isPrefixOf, Bool.and_eq_true, beq_iff_eq] at hp
        simp [← hp.1]
    · simp at h

theorem length_of_comment? {cs text rest : List Char} (h : comment? cs = some (text, rest)) :
    rest.length < cs.length := by
  obtain ⟨rfl, hne⟩ := append_of_comment? h
  have := List.length_pos_iff.2 hne
  simp only [List.length_append]
  omega

/-- What follows the blanks and comments that a text starts with. -/
def skipTrivia (cs : List Char) : List Char :=
  match h : comment? (cs.dropWhile isBlank) with
  | none => cs.dropWhile isBlank
  | some (_, rest) =>
    have h₁ := length_of_comment? h
    have h₂ := (List.dropWhile_sublist (l := cs) isBlank).length_le
    have : rest.length < cs.length := by omega
    skipTrivia rest
termination_by cs.length

theorem length_skipTrivia (cs : List Char) : (skipTrivia cs).length ≤ cs.length := by
  fun_induction skipTrivia cs with
  | case1 cs => exact (List.dropWhile_sublist _).length_le
  | case2 cs text rest h h₁ h₂ h₃ ih => omega

end SignatureSearch.Elm
