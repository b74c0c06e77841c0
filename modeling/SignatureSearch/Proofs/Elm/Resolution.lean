/-
# `Proofs.Elm.Resolution` — a body is resolved declaration by declaration

The exported entries of a body in two parts are those of the first part, then
those of the second, and what is neither function nor type changes nothing
(`resolve_append`, `resolve_eq_of_named`).  Of an explicit list nothing counts
but the first item of every name.  A declaration of that name takes from it what
the body leaves open, if both are of one kind:

    body              first item            entry
    f : A -> B        anything              f with A -> B
    f without terms   the function f        f with the terms of the item
    f without terms   the type f            f without terms
    T with a text     anything              T with its text
    T without a text  the type T(..)        T with the group of the item
    T without a text  the function T        T without a text

So the items may stand in any order and be repeated, as long as each name keeps
its first item (`resolve_of_clause`).
-/
import SignatureSearch.Proofs.Elm.Selection

namespace SignatureSearch.Elm

/-! ## Bodies in parts -/

theorem mapM_eq_ok_of_map {ε α β : Type} {f : α → Except ε β} {items : List α} {found : List β}
    (h : items.map f = found.map .ok) : items.mapM f = .ok found := by
  have hrow : (items.map f).mapM id = (found.map Except.ok).mapM id := congrArg (List.mapM id) h
  rw [List.mapM_map, List.mapM_map, Function.id_comp, Function.id_comp] at hrow
  rw [hrow]
  exact (List.mapM_pure (f := id)).trans (by rw [List.map_id]; rfl)

theorem resolveGiven_ok (spec : ExportSpec) (ds : List Declaration) :
    resolveGiven (.ok spec) (ds.map .ok) = .ok (resolve spec ds) := by
  have hknown : (ds.map .ok).map (fun d : Except String Declaration =>
      d.mapError VariantError.declaration) = ds.map .ok := by
    rw [List.map_map]
    rfl
  show ((ds.map .ok).mapM (fun d : Except String Declaration =>
    d.mapError VariantError.declaration) >>= fun ds => pure (resolve spec ds)) = _
  rw [mapM_eq_ok_of_map hknown]
  rfl

theorem resolve_append (spec : ExportSpec) (ds₁ ds₂ : List Declaration) :
    resolve spec (ds₁ ++ ds₂) = resolve spec ds₁ ++ resolve spec ds₂ :=
  List.filterMap_append ..

/-- The functions and types among some declarations. -/
def named (ds : List Declaration) : List Declaration :=
  ds.filter (·.name?.isSome)

theorem entryUnder?_of_name?_eq_none (spec : ExportSpec) {d : Declaration} (h : d.name? = none) :
    entryUnder? spec d = none := by
  cases spec with
  | list items => rw [entryUnder?, h, Option.bind_none]
  | all =>
      cases d with
      | comment text => rfl
      | ignore => rfl
      | function name signature => cases h
      | type name definition isAlias => cases h

theorem resolve_named (spec : ExportSpec) (ds : List Declaration) :
    resolve spec (named ds) = resolve spec ds := by
  rw [resolve, named, List.filterMap_filter]
  refine List.filterMap_congr fun d _ => ?_
  cases h : d.name? with
  | none => rw [entryUnder?_of_name?_eq_none spec h, ite_self]
  | some name => exact if_pos rfl

/-- Bodies with the same functions and types in the same order are resolved alike. -/
theorem resolve_eq_of_named (spec : ExportSpec) {ds ds' : List Declaration}
    (h : named ds = named ds') : resolve spec ds = resolve spec ds' := by
  rw [← resolve_named, h, resolve_named]

/-! ## One declaration and the item of its name -/

/-- An item that no other of its name stands before. -/
def IsFirst (items : List ExportedName) (first : ExportedName) : Prop :=
  ∃ before later, items = before ++ first :: later ∧ first.name ∉ listed before

theorem isFirst_iff {items : List ExportedName} {first : ExportedName} :
    IsFirst items first ↔ items.find? (·.name == first.name) = some first := by
  rw [List.find?_eq_some_iff_append, and_iff_right (beq_self_eq_true first.name)]
  refine exists_congr fun before => exists_congr fun later => and_congr_right fun _ => ?_
  simp only [listed, List.mem_map, not_exists, not_and, Bool.not_eq_true', beq_eq_false_iff_ne,
    ne_eq]

/-- The entry of a declaration under an item of its name. -/
inductive Completes : ExportedName → Declaration → ExportEntry → Prop
  | givenTerms {item : ExportedName} (terms : List String) :
      Completes item (.function item.name (some terms)) (.function item.name (some terms))
  | givenText {item : ExportedName} (text : String) (isAlias : Bool) :
      Completes item (.type item.name (some text) isAlias) (.type item.name (some text))
  | takenTerms (name : String) (signature : Option (List String)) :
      Completes (.function name signature) (.function name none) (.function name signature)
  | takenText (name : String) (definition : Option String) (isAlias : Bool) :
      Completes (.type name definition) (.type name none isAlias) (.type name definition)
  | noTerms (name : String) (definition : Option String) :
      Completes (.type name definition) (.function name none) (.function name none)
  | noText (name : String) (signature : Option (List String)) (isAlias : Bool) :
      Completes (.function name signature) (.type name none isAlias) (.type name none)

theorem Completes.name?_eq {item : ExportedName} {d : Declaration} {e : ExportEntry}
    (h : Completes item d e) : d.name? = some item.name := by
  cases h <;> rfl

theorem Completes.entry_eq {item : ExportedName} {d : Declaration} {e : ExportEntry}
    (h : Completes item d e) : toEntry? (some item) d = some e := by
  cases h <;> rfl

theorem completes_of_toEntry? {item : ExportedName} {d : Declaration} {e : ExportEntry}
    (hname : d.name? = some item.name) (h : toEntry? (some item) d = some e) :
    Completes item d e := by
  cases d with
  | comment text => cases hname
  | ignore => cases hname
  | function name signature =>
      obtain rfl := Option.some.inj hname
      obtain rfl := Option.some.inj h
      cases signature with
      | some terms => exact .givenTerms terms
      | none =>
          cases item with
          | function name signature => exact .takenTerms name signature
          | type name definition => exact .noTerms name definition
  | type name definition isAlias =>
      obtain rfl := Option.some.inj hname
      obtain rfl := Option.some.inj h
      cases definition with
      | some text => exact .givenText text isAlias
      | none =>
          cases item with
          | function name signature => exact .noText name signature isAlias
          | type name definition => exact .takenText name definition isAlias

/-- Under a list, a declaration has the entry that the first item of its name gives it. -/
theorem entryUnder?_list_eq_some_iff {items : List ExportedName} {d : Declaration}
    {e : ExportEntry} : entryUnder? (.list items) d = some e ↔
      ∃ first, IsFirst items first ∧ Completes first d e := by
  constructor
  · intro h
    obtain ⟨name, hname, h⟩ := Option.bind_eq_some_iff.mp h
    obtain ⟨first, hfind, h⟩ := Option.bind_eq_some_iff.mp h
    obtain rfl : first.name = name := eq_of_beq (List.find?_some hfind :)
    rw [hfind, Option.bind_some] at h
    exact ⟨first, isFirst_iff.mpr hfind, completes_of_toEntry? hname h⟩
  · rintro ⟨first, hfirst, h⟩
    rw [entryUnder?, h.name?_eq, Option.bind_some, isFirst_iff.mp hfirst, Option.bind_some]
    exact h.entry_eq

/-- The declarations whose names a list has. -/
def chosen (items : List ExportedName) (ds : List Declaration) : List Declaration :=
  ds.filter fun d => d.name?.any (· ∈ listed items)

theorem isSome_entryUnder?_list (items : List ExportedName) (d : Declaration) :
    (entryUnder? (.list items) d).isSome = d.name?.any (· ∈ listed items) := by
  rw [← Option.isSome_map, map_name_entryUnder?, Option.isSome_filter]

/-- The entries of a body are those of the declarations with listed names, one by one. -/
theorem forall₂_resolve (items : List ExportedName) (ds : List Declaration) :
    List.Forall₂ (fun d e => ∃ first, IsFirst items first ∧ Completes first d e)
      (chosen items ds) (resolve (.list items) ds) := by
  induction ds with
  | nil => exact .nil
  | cons d ds ih =>
      have hchosen := isSome_entryUnder?_list items d
      cases hentry : entryUnder? (.list items) d with
      | none =>
          rw [hentry, Option.isSome_none] at hchosen
          rw [resolve, List.filterMap_cons_none hentry, chosen, List.filter_cons, ← hchosen]
          exact ih
      | some e =>
          rw [hentry, Option.isSome_some] at hchosen
          rw [resolve, List.filterMap_cons_some hentry, chosen, List.filter_cons, ← hchosen]
          exact .cons (entryUnder?_list_eq_some_iff.mp hentry) ih

/-! ## Lists with the same first items -/

theorem find?_of_not_listed {items : List ExportedName} {name : String} (h : name ∉ listed items) :
    items.find? (·.name == name) = none := by
  cases hitem : items.find? (·.name == name) with
  | none => rfl
  | some item => exact absurd (mem_names_of_find? hitem) h

theorem resolve_eq_of_find? {items items' : List ExportedName}
    (h : ∀ name, items.find? (·.name == name) = items'.find? (·.name == name))
    (ds : List Declaration) : resolve (.list items) ds = resolve (.list items') ds := by
  refine List.filterMap_congr fun d _ => ?_
  show d.name?.bind _ = d.name?.bind _
  cases d.name? with
  | none => rfl
  | some name => rw [Option.bind_some, Option.bind_some, h name]

/-- Items of names that are listed already add nothing behind the others. -/
theorem find?_append_listed {items more : List ExportedName} (h : listed more ⊆ listed items)
    (name : String) : (items ++ more).find? (·.name == name) = items.find? (·.name == name) := by
  rw [List.find?_append]
  cases hitem : items.find? (·.name == name) with
  | some item => rfl
  | none =>
      rw [Option.none_or, List.find?_eq_none]
      intro item hin hname
      obtain rfl : item.name = name := eq_of_beq hname
      exact not_mem_names_of_find? hitem (h (List.mem_map_of_mem hin))

theorem find?_eq_of_perm {items items' : List ExportedName} (h : items.Perm items')
    (hnodup : (listed items).Nodup) (name : String) :
    items.find? (·.name == name) = items'.find? (·.name == name) := by
  induction h with
  | nil => rfl
  | cons item _ ih =>
      rw [List.find?_cons, List.find?_cons, ih (List.nodup_cons.mp hnodup).2]
  | swap a b rest =>
      have hne : b.name ≠ a.name := fun heq =>
        (List.nodup_cons.mp hnodup).1 (List.mem_cons.mpr (.inl heq))
      simp only [List.find?_cons]
      cases ha : a.name == name with
      | false => rfl
      | true =>
          obtain rfl := eq_of_beq ha
          rw [beq_eq_false_iff_ne.mpr hne]
  | trans h₁ _ ih₁ ih₂ =>
      exact (ih₁ hnodup).trans (ih₂ ((h₁.map _).nodup_iff.mp hnodup))

/-- **How a body is resolved.**  Known declarations have entries, part by part, and what is neither
function nor type takes no part.  Under a list, the names are the declared ones that are listed, in
the order and as often as the body has them; every entry is the declaration with what the first item
of its name adds; and a list with the same names and the same first items does the same. -/
theorem resolve_of_clause (spec : ExportSpec) :
    (∀ ds, resolveGiven (.ok spec) (ds.map .ok) = .ok (resolve spec ds)) ∧
    (∀ ds₁ ds₂, resolve spec (ds₁ ++ ds₂) = resolve spec ds₁ ++ resolve spec ds₂) ∧
    (∀ ds ds', named ds = named ds' → resolve spec ds = resolve spec ds') ∧
    ∀ items, spec = .list items →
      (∀ ds, (resolve spec ds).map (·.name) = (declared ds).filter (· ∈ listed items) ∧
        List.Forall₂ (fun d e => ∃ first, IsFirst items first ∧ Completes first d e)
          (chosen items ds) (resolve spec ds)) ∧
      ∀ items', (∀ name, name ∈ listed items ↔ name ∈ listed items') →
        (∀ name ∈ listed items,
          items.find? (·.name == name) = items'.find? (·.name == name)) →
        ∀ ds, resolve spec ds = resolve (.list items') ds := by
  refine ⟨resolveGiven_ok spec, resolve_append spec, fun _ _ => resolve_eq_of_named spec, ?_⟩
  rintro items rfl
  refine ⟨fun ds => ⟨map_name_resolve items ds, forall₂_resolve items ds⟩, ?_⟩
  intro items' hnames hfirst
  refine resolve_eq_of_find? fun name => ?_
  by_cases hin : name ∈ listed items
  · exact hfirst name hin
  · have hout : name ∉ listed items' := (hnames name).not.mp hin
    rw [find?_of_not_listed hin, find?_of_not_listed hout]

/-- A list in another order and with repetitions.  The type takes its group of constructors from the
first item of its name, and the function takes nothing from an item for a type. -/
theorem resolve_of_clause_sample :
    let items := [ExportedName.type "Msg" (some ".."), .type "view" (some ".."), .function "f" none]
    let again := [ExportedName.function "f" none, .type "view" (some ".."), .type "Msg" (some ".."),
      .type "f" (some ".."), .function "Msg" none]
    let body := [Declaration.function "f" (some ["Int"]), .type "Msg" none false,
      .function "view" none, .type "Msg" (some "= A | B") false, .function "g" none]
    let commented := [Declaration.comment "-- f", .function "f" (some ["Int"]), .ignore,
      .type "Msg" none false, .function "view" none, .comment "-- Msg",
      .type "Msg" (some "= A | B") false, .ignore, .function "g" none]
    resolve (.list again) commented = resolve (.list items) body ∧
      resolve (.list items) body = [.function "f" (some ["Int"]), .type "Msg" (some ".."),
        .function "view" none, .type "Msg" (some "= A | B")] := by
  intro items again body commented
  obtain ⟨-, -, hnamed, hlist⟩ := resolve_of_clause (.list items)
  obtain ⟨-, hsame⟩ := hlist items rfl
  have horder : ∀ name, items.find? (·.name == name) = again.find? (·.name == name) := by
    intro name
    have hperm : items.Perm (again.take 3) := by decide
    have hadded : listed (again.drop 3) ⊆ listed (again.take 3) := by decide
    rw [find?_eq_of_perm hperm (by decide), ← find?_append_listed hadded, List.take_append_drop]
  have hthere : listed items ⊆ listed again := by decide
  have hback : listed again ⊆ listed items := by decide
  constructor
  · rw [← hsame again (fun name => ⟨@hthere name, @hback name⟩) (fun name _ => horder name)]
    exact (hnamed body commented rfl).symm
  · rfl

end SignatureSearch.Elm
