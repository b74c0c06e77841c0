/-
# `Proofs.Elm.Filtering` — bodies under different headers

The rules of a body look one character back and search forward in the whole
text, but nothing before the end of the header takes part in what they find:

    readHeader_append     a header that fills its text is the header of every
                          continuation, and the body is the continuation
    tiling_shift_iff      two texts that end alike are tiled alike, the offsets
                          apart

So the declarations of a body do not depend on the header, and what an explicit
list exports is the part of `exposing (..)` that it names
(`resolve_list_eq_filter`): the items of a header never give a signature, and
give a type its group of constructors only where the body has no definition.
-/
import SignatureSearch.Proofs.Elm.HeaderPrefix
import SignatureSearch.Proofs.Elm.Tiling

namespace SignatureSearch.Elm

/-! ## A header in front of a body -/

theorem readHeader_append {header : List Char} {spec : ExportSpec} {name : String}
    (h : readHeader header = .ok ⟨spec, name, []⟩) (body : List Char) :
    readHeader (header ++ body) = .ok ⟨spec, name, body⟩ := by
  obtain ⟨e, hdrop, hheader⟩ := readHeader_sound h
  obtain rfl : e = header.length := by
    have hin := hheader.1
    have hlength := congrArg List.length hdrop
    simp only [List.length_drop, List.length_nil] at hlength
    omega
  have hsame : (header ++ body).take header.length = header.take header.length := by
    rw [List.take_left, List.take_length]
  have hread := readHeader_of_take_eq hheader hsame
  rwa [List.drop_left, String.ofList_toList] at hread

theorem getLast?_of_readHeader {header : List Char} {spec : ExportSpec} {name : String}
    (h : readHeader header = .ok ⟨spec, name, []⟩) : header.getLast? = some ')' := by
  obtain ⟨e, hdrop, hheader⟩ := readHeader_sound h
  have hlast := hheader.getLast?
  rwa [List.take_of_length_le (List.drop_eq_nil_iff.mp hdrop)] at hlast

/-- The same part of a text that stands further back. -/
def Segment.shift (offset : Nat) (s : Segment) : Segment :=
  ⟨offset + s.start, offset + s.stop, s.declaration⟩

theorem segmentsFrom_add (offset : Nat) (ps : List Piece) : ∀ start,
    segmentsFrom (offset + start) ps = (segmentsFrom start ps).map (Segment.shift offset) := by
  induction ps with
  | nil => intro _; rfl
  | cons p ps ih =>
      intro start
      rw [segmentsFrom, segmentsFrom, List.map_cons, Nat.add_assoc, ih]
      rfl

/-- Behind a header, a body has one tiling, and only its offsets depend on the header. -/
theorem tiling_shift_iff {header : List Char} {spec : ExportSpec} {name : String}
    (h : readHeader header = .ok ⟨spec, name, []⟩) (body : List Char) (segments : List Segment) :
    Tiling (header ++ body) header.length segments ↔
      segments = (segmentsFrom 0 (pieces ')' body)).map (Segment.shift header.length) := by
  rw [tiling_iff body (getLast?_of_readHeader h), ← segmentsFrom_add, Nat.add_zero]

/-! ## What a list adds to an entry -/

theorem Item.signature?_eq {i : List Char} {n : ExportedName} (h : Item i n) :
    n.signature? = none := by
  cases h <;> rfl

theorem ItemList.signature?_eq {e : List Char} {ns : List ExportedName} (h : ItemList e ns) :
    ∀ n ∈ ns, n.signature? = none := by
  induction h with
  | one _ hi _ => simpa using hi.signature?_eq
  | more _ hi _ _ ih => exact List.forall_mem_cons.mpr ⟨hi.signature?_eq, ih⟩

theorem signature?_of_readHeader {text : List Char} {header : Header} {items : List ExportedName}
    (h : readHeader text = .ok header) (hspec : header.spec = .list items) :
    ∀ n ∈ items, n.signature? = none := by
  obtain ⟨-, -, -, A, B, S, E, -, -, -, -, -, hE⟩ := readHeader_sound h
  rw [hspec] at hE
  cases hE with
  | nothing _ => simp
  | items hl => exact hl.signature?_eq

/-- An entry with what a list says about it: a type that has no definition takes the group of the
first item of its name. -/
def ExportEntry.completed (items : List ExportedName) : ExportEntry → ExportEntry
  | .type name none => .type name ((items.find? (·.name == name)).bind (·.definition?))
  | entry => entry

theorem not_mem_names_of_find? {items : List ExportedName} {name : String}
    (h : items.find? (·.name == name) = none) : name ∉ items.map (·.name) := by
  simpa [List.find?_eq_none] using h

theorem mem_names_of_find? {items : List ExportedName} {name : String} {n : ExportedName}
    (h : items.find? (·.name == name) = some n) : name ∈ items.map (·.name) :=
  List.mem_map.mpr ⟨n, List.mem_of_find?_eq_some h, by simpa using List.find?_some h⟩

/-- Under a list, a declaration has the entry that it has anyway, if the list names it. -/
theorem entryUnder?_list {items : List ExportedName} (hs : ∀ n ∈ items, n.signature? = none)
    (d : Declaration) :
    entryUnder? (.list items) d =
      ((entryUnder? .all d).filter (·.name ∈ items.map (·.name))).map (·.completed items) := by
  cases d with
  | comment text => rfl
  | ignore => rfl
  | function name signature =>
      cases hf : items.find? (·.name == name) with
      | none =>
          have hnot := not_mem_names_of_find? hf
          simp only [entryUnder?, Declaration.name?, Option.bind_some, hf, Option.bind_none,
            toEntry?, Option.filter_some, ExportEntry.name, hnot, decide_false, Bool.false_eq_true,
            if_false, Option.map_none]
      | some n =>
          have hin := mem_names_of_find? hf
          have hn := hs n (List.mem_of_find?_eq_some hf)
          simp only [entryUnder?, Declaration.name?, Option.bind_some, hf, Option.bind_none, hn,
            toEntry?, Option.filter_some, ExportEntry.name, hin, decide_true, if_true,
            Option.map_some, ExportEntry.completed]
  | type name definition _ =>
      cases hf : items.find? (·.name == name) with
      | none =>
          have hnot := not_mem_names_of_find? hf
          simp only [entryUnder?, Declaration.name?, Option.bind_some, hf, Option.bind_none,
            toEntry?, Option.filter_some, ExportEntry.name, hnot, decide_false, Bool.false_eq_true,
            if_false, Option.map_none]
      | some n =>
          have hin := mem_names_of_find? hf
          cases definition <;>
            simp only [entryUnder?, Declaration.name?, Option.bind_some, hf, Option.bind_none,
              toEntry?, Option.filter_some, ExportEntry.name, hin, decide_true, if_true,
              Option.map_some, Option.none_or, Option.some_or, ExportEntry.completed]

/-- What a list exports is the part of everything that it names, in the order of the body. -/
theorem resolve_list_eq_filter {items : List ExportedName}
    (hs : ∀ n ∈ items, n.signature? = none) (ds : List Declaration) :
    resolve (.list items) ds =
      ((resolve .all ds).filter (·.name ∈ items.map (·.name))).map (·.completed items) := by
  rw [resolve, resolve, List.filter_filterMap, List.map_filterMap]
  exact List.filterMap_congr fun d _ => entryUnder?_list hs d

/-! ## Modules with the same body -/

/-- **The body of a module does not depend on its header, and a list is a filter.**  Under two
headers a body is cut into the same segments, the offsets apart, and gives the same declarations;
and if the first header exposes everything and the second one a list, then the second module exports
what the first one does and the list names, in the same order, with groups from the list for types
that have no definition. -/
theorem readModule_append {header₁ header₂ : List Char} {spec₁ spec₂ : ExportSpec}
    {name₁ name₂ : String} (h₁ : readHeader header₁ = .ok ⟨spec₁, name₁, []⟩)
    (h₂ : readHeader header₂ = .ok ⟨spec₂, name₂, []⟩) (body : List Char) :
    ∃ m₁ m₂, readModule (header₁ ++ body) = .ok m₁ ∧ readModule (header₂ ++ body) = .ok m₂ ∧
      m₁.spec = spec₁ ∧ m₂.spec = spec₂ ∧
      (∃ segments : List Segment,
        (∀ s, Tiling (header₁ ++ body) header₁.length s ↔
          s = segments.map (Segment.shift header₁.length)) ∧
        (∀ s, Tiling (header₂ ++ body) header₂.length s ↔
          s = segments.map (Segment.shift header₂.length)) ∧
        m₁.declarations = (segments.map (·.declaration)).filter (·.isKept) ∧
        m₂.declarations = m₁.declarations) ∧
      ∀ items, spec₁ = .all → spec₂ = .list items →
        m₂.exports =
          (m₁.exports.filter (·.name ∈ items.map (·.name))).map (·.completed items) := by
  have hread₁ := readModule_eq_ok_iff.mpr ⟨_, readHeader_append h₁ body, rfl⟩
  have hread₂ := readModule_eq_ok_iff.mpr ⟨_, readHeader_append h₂ body, rfl⟩
  refine ⟨_, _, hread₁, hread₂, rfl, rfl, ⟨_, tiling_shift_iff h₁ body, tiling_shift_iff h₂ body,
    ?_, rfl⟩, ?_⟩
  · rw [map_declaration_segmentsFrom, readBody]
  · rintro items rfl rfl
    exact resolve_list_eq_filter (signature?_of_readHeader h₂ rfl) (readBody body)

/-- A type without a definition takes the group of the first of two items. -/
theorem readModule_append_sample :
    let body := "\ng : Int\ng = 1\ntype T\nf : Int -> Int\nf x = x\ntype U = U".toList
    ∃ m, readModule ("module B exposing (T(A, B), f, U(..), T)".toList ++ body) = .ok m ∧
      m.exports = [.type "T" (some "A,B"), .function "f" (some ["Int", "Int"]),
        .type "U" (some "= U")] := by
  intro body
  have h₁ : readHeader "module A exposing (..)".toList = .ok ⟨.all, "A", []⟩ := by
    decide +kernel
  have h₂ : readHeader "module B exposing (T(A, B), f, U(..), T)".toList =
      .ok ⟨.list [.type "T" (some "A,B"), .function "f" none, .type "U" (some ".."),
        .type "T" none], "B", []⟩ := by
    decide +kernel
  obtain ⟨m₁, m₂, hm₁, hm₂, -, -, -, hexports⟩ := readModule_append h₁ h₂ body
  refine ⟨m₂, hm₂, (hexports _ rfl rfl).trans ?_⟩
  have hall : readModule ("module A exposing (..)".toList ++ body) =
      .ok ⟨.all, [.function "g" (some ["Int"]), .type "T" none false,
        .function "f" (some ["Int", "Int"]), .type "U" (some "= U") false], "A"⟩ := by
    decide +kernel
  obtain rfl := Except.ok.inj (hm₁.symm.trans hall)
  decide +kernel

end SignatureSearch.Elm
