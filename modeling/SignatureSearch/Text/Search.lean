/-
# `Text.Search` — finding and cutting at a substring

`cut pat cs` is the text before and the text after the first occurrence of
`pat` in `cs`; what it returns, put together again, is the text itself.
-/
namespace SignatureSearch.Text

/-- The text before and after the first occurrence of `pat`. -/
def cut (pat : List Char) : List Char → Option (List Char × List Char)
  | [] => if pat.isEmpty then some ([], []) else none
  | c :: cs =>
    match pat.isPrefixOf? (c :: cs) with
    | some after => some ([], after)
    | none => (cut pat cs).map fun (before, after) => (c :: before, after)

/-- Cuts a text at every occurrence of a character. -/
def splitOn (sep : Char) : List Char → List (List Char)
  | [] => [[]]
  | c :: cs =>
    if c = sep then [] :: splitOn sep cs
    else
      match splitOn sep cs with
      | [] => [[c]]
      | part :: parts => (c :: part) :: parts

/-- The text before and after the first occurrence of a character. -/
def cutChar (sep : Char) (cs : List Char) : Option (List Char × List Char) :=
  match cs.dropWhile (· != sep) with
  | [] => none
  | _ :: after => some (cs.takeWhile (· != sep), after)

theorem append_of_isPrefixOf? {pat cs rest : List Char}
    (h : pat.isPrefixOf? cs = some rest) : cs = pat ++ rest := by
  induction pat generalizing cs with
  | nil => exact Option.some.inj h
  | cons p pat ih =>
    cases cs with
    | nil => exact absurd h (by intro h; cases h)
    | cons c cs =>
      change (if p == c then pat.isPrefixOf? cs else none) = some rest at h
      split at h
      · rename_i hpc
        rw [ih h, eq_of_beq hpc, List.cons_append]
      · exact absurd h (by intro h; cases h)

theorem append_of_cut {pat cs before after : List Char}
    (h : cut pat cs = some (before, after)) : cs = before ++ pat ++ after := by
  induction cs generalizing before with
  | nil =>
    simp only [cut] at h
    split at h <;> simp_all
  | cons c cs ih =>
    simp only [cut] at h
    split at h
    · rename_i rest hrest
      simp only [Option.some.injEq, Prod.mk.injEq] at h
      obtain ⟨rfl, rfl⟩ := h
      simpa using append_of_isPrefixOf? hrest
    · simp only [Option.map_eq_some_iff, Prod.mk.injEq, Prod.exists] at h
      obtain ⟨b, a, hcut, rfl, rfl⟩ := h
      simpa using ih hcut

end SignatureSearch.Text
