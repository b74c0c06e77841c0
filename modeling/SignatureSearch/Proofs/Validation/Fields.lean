/-
# `Proofs.Validation.Fields` — what is written is read back

A record is read from the fields that it is written to.  Field by field this
rests on

    required, defaulted      the field is there, and its value is read
    nullable                 none is written as null, and null is none
    list                     a list is read if its items are

and a list of texts is read from nothing but an array of them
(`list_text_eq_valid_iff`).
-/
import SignatureSearch.Elm.Json

namespace SignatureSearch.Validation

variable {α : Type} {fields : Fields} {name : String} {v : Json} {read : Reader α} {a : α}

theorem required_eq_valid (hfield : Json.field? fields name = some v) (hread : read v = .valid a) :
    required fields name read = .valid a := by
  rw [required, hfield]
  dsimp only
  rw [hread, Checked.within]

theorem defaulted_eq_valid (hfield : Json.field? fields name = some v) (hread : read v = .valid a)
    (default : α) : defaulted fields name default read = .valid a := by
  rw [defaulted, hfield]
  dsimp only
  rw [hread, Checked.within]

theorem optional_eq_none (hfield : Json.field? fields name = none) :
    optional fields name read = .valid none := by
  rw [optional, defaulted, hfield]
  rfl

theorem nullable_text_ofOption (s : Option String) : nullable text (.ofOption s) = .valid s := by
  cases s <;> rfl

theorem itemsFrom_map {write : α → Json} {items : List α}
    (h : ∀ a ∈ items, read (write a) = .valid a) (i : Nat) :
    itemsFrom read i (items.map write) = .valid items := by
  induction items generalizing i with
  | nil => rfl
  | cons a rest ih =>
      rw [List.forall_mem_cons] at h
      rw [List.map_cons, itemsFrom, h.1, ih h.2]
      rfl

theorem list_map {write : α → Json} {items : List α}
    (h : ∀ a ∈ items, read (write a) = .valid a) :
    list read (.arr (items.map write)) = .valid items :=
  itemsFrom_map h 0

theorem nullable_termsToJson (terms : Option (List String)) :
    nullable (list text) (Elm.termsToJson terms) = .valid terms := by
  cases terms with
  | none => rfl
  | some terms =>
      have hread : ∀ s ∈ terms, text (.str s) = .valid s := fun _ _ => rfl
      show some <$> list text (.arr (terms.map .str)) = .valid (some terms)
      rw [list_map hread]
      rfl

/-! ## Reading texts -/

theorem map_eq_valid_iff {β : Type} {f : α → β} {c : Checked α} {b : β} :
    f <$> c = .valid b ↔ ∃ a, c = .valid a ∧ f a = b :=
  Checked.map_eq_valid

theorem text_eq_valid_iff {s : String} : text v = .valid s ↔ v = .str s := by
  cases v with
  | str t => exact ⟨fun h => congrArg _ (Checked.valid.inj h), fun h => congrArg _ (Json.str.inj h)⟩
  | _ => exact iff_of_false nofun nofun

theorem itemsFrom_text_eq_valid {items : List Json} {words : List String} {i : Nat}
    (h : itemsFrom text i items = .valid words) : items = words.map .str := by
  induction items generalizing i words with
  | nil =>
      obtain rfl := Checked.valid.inj h
      rfl
  | cons v rest ih =>
      rw [itemsFrom, Checked.seq_eq_valid] at h
      obtain ⟨_, others, hfirst, hrest, rfl⟩ := h
      obtain ⟨word, hword, rfl⟩ := map_eq_valid_iff.mp hfirst
      rw [Checked.within_eq_valid, text_eq_valid_iff] at hword
      rw [hword, ih hrest]
      rfl

theorem list_text_eq_valid_iff {items : List Json} {words : List String} :
    list text (.arr items) = .valid words ↔ items = words.map .str := by
  constructor
  · exact itemsFrom_text_eq_valid
  · rintro rfl
    exact list_map fun _ _ => rfl

/-! ## Fields of texts -/

theorem required_text {s : String} (hfield : Json.field? fields name = some (.str s)) :
    required fields name text = .valid s :=
  required_eq_valid hfield rfl

theorem optional_text {s : Option String} (hfield : Json.field? fields name = some (.ofOption s)) :
    optional fields name text = .valid s :=
  defaulted_eq_valid hfield (nullable_text_ofOption s) none

theorem required_text_eq_valid_iff {s : String} :
    required fields name text = .valid s ↔ Json.field? fields name = some (.str s) := by
  rw [required, Checked.within_eq_valid]
  cases Json.field? fields name with
  | none => exact iff_of_false nofun nofun
  | some v => exact text_eq_valid_iff.trans (Option.some_inj).symm

theorem nullable_text_eq_valid_iff {s : Option String} :
    nullable text v = .valid s ↔ v = .ofOption s := by
  have hsome : v ≠ .null → (some <$> text v = .valid s ↔ v = .ofOption s) := by
    intro hne
    rw [map_eq_valid_iff]
    cases s with
    | none => exact iff_of_false (fun ⟨_, _, h⟩ => nomatch h) hne
    | some word =>
        constructor
        · rintro ⟨_, htext, hword⟩
          obtain rfl := Option.some.inj hword
          exact text_eq_valid_iff.mp htext
        · rintro rfl
          exact ⟨word, rfl, rfl⟩
  cases v with
  | null => cases s <;> simp [nullable, Json.ofOption]
  | _ => exact hsome nofun

/-- A text that may be missing is none where there is no field, or null. -/
theorem optional_text_eq_valid_iff {s : Option String} :
    optional fields name text = .valid s ↔
      (Json.field? fields name).getD .null = .ofOption s := by
  rw [optional, defaulted, Checked.within_eq_valid]
  cases Json.field? fields name with
  | none => exact nullable_text_eq_valid_iff (v := .null)
  | some v => exact nullable_text_eq_valid_iff

theorem optional_terms {terms : Option (List String)}
    (hfield : Json.field? fields name = some (Elm.termsToJson terms)) :
    optional fields name (list text) = .valid terms :=
  defaulted_eq_valid hfield (nullable_termsToJson terms) none

end SignatureSearch.Validation
