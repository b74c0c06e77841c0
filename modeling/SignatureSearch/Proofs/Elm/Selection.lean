/-
# `Proofs.Elm.Selection` — what an explicit list lets through

An explicit list exports declarations of the body, in their order and as often
as they stand there: of the names that are declared, those that are listed
(`map_name_resolve`).  So there are never more entries than declarations, and no
entry has a name that is not on both sides.

There may be more entries than items, though.  One item lets all declarations of
its name through, and a body can declare a name twice: what looks like an
annotation within a text of several lines is one (`readModule_exceeds`).  The
entries are as many as the items at most if no name is declared more often than
it is listed (`readModule_selects`).
-/
import Mathlib.Data.List.Perm.Subperm
import SignatureSearch.Proofs.Elm.Filtering

namespace SignatureSearch.Elm

/-- The names of the functions and types among some declarations, in their order; a name that is
declared again is there again. -/
def declared (ds : List Declaration) : List String :=
  ds.filterMap (·.name?)

def listed (items : List ExportedName) : List String :=
  items.map (·.name)

theorem map_name_entryUnder? (items : List ExportedName) (d : Declaration) :
    (entryUnder? (.list items) d).map (·.name) = d.name?.filter (· ∈ listed items) := by
  have hnamed : ∀ name, d.name? = some name → (∀ exported, ∃ entry,
      toEntry? (some exported) d = some entry ∧ entry.name = name) →
      (entryUnder? (.list items) d).map (·.name) = d.name?.filter (· ∈ listed items) := by
    intro name hname hentry
    rw [entryUnder?, hname, Option.bind_some]
    cases hfind : items.find? (·.name == name) with
    | none =>
        have hnot : name ∉ listed items := not_mem_names_of_find? hfind
        simp only [Option.bind_none, Option.map_none, Option.filter_some, hnot, decide_false,
          Bool.false_eq_true, if_false]
    | some exported =>
        obtain ⟨entry, hsome, rfl⟩ := hentry exported
        have hin : entry.name ∈ listed items := mem_names_of_find? hfind
        simp only [Option.bind_some, hsome, Option.map_some, Option.filter_some, hin, decide_true,
          if_true]
  cases d with
  | comment text => rfl
  | ignore => rfl
  | function name signature => exact hnamed name rfl fun exported => ⟨_, rfl, rfl⟩
  | type name definition isAlias => exact hnamed name rfl fun exported => ⟨_, rfl, rfl⟩

/-- **An explicit list keeps the declared names that are listed**, in the order of the body and with
their repetitions. -/
theorem map_name_resolve (items : List ExportedName) (ds : List Declaration) :
    (resolve (.list items) ds).map (·.name) = (declared ds).filter (· ∈ listed items) := by
  rw [resolve, declared, List.map_filterMap, List.filter_filterMap]
  exact List.filterMap_congr fun d _ => map_name_entryUnder? items d

/-- What is kept of some names is no longer than a list that has each of them as often. -/
theorem length_filter_le_of_count_le {names kept : List String}
    (h : ∀ name ∈ kept, names.count name ≤ kept.count name) :
    (names.filter (· ∈ kept)).length ≤ kept.length := by
  refine (List.subperm_iff_count.mpr fun name => ?_).length_le
  by_cases hin : name ∈ kept
  · exact (List.filter_sublist.count_le name).trans (h name hin)
  · have hnone : name ∉ names.filter (· ∈ kept) := by simp [hin]
    rw [List.count_eq_zero_of_not_mem hnone]
    exact Nat.zero_le _

/-- **What a module with an explicit list exports.**  The names of the entries are the declared ones
that are listed.  So each is on both sides, and there are not more entries than declarations.  There
are not more than items, too, if and only if the declarations with listed names are not; above all
if no listed name is declared more often than it is listed. -/
theorem readModule_selects {text : List Char} {header : Header} {items : List ExportedName}
    (h : readHeader text = .ok header) (hspec : header.spec = .list items) :
    ∃ m, readModule text = .ok m ∧ m.spec = .list items ∧ m.declarations = readBody header.body ∧
      m.exports.map (·.name) = (declared m.declarations).filter (· ∈ listed items) ∧
      (∀ e ∈ m.exports, e.name ∈ listed items ∧ e.name ∈ declared m.declarations) ∧
      m.exports.length ≤ (declared m.declarations).length ∧
      (m.exports.length ≤ min items.length (declared m.declarations).length ↔
        (declared m.declarations).countP (· ∈ listed items) ≤ items.length) ∧
      ((∀ name ∈ listed items, (declared m.declarations).count name ≤ (listed items).count name) →
        m.exports.length ≤ min items.length (declared m.declarations).length) := by
  have hnames := map_name_resolve items (readBody header.body)
  have hlength := congrArg List.length hnames
  rw [List.length_map] at hlength
  have hbody : (resolve (.list items) (readBody header.body)).length ≤
      (declared (readBody header.body)).length :=
    hlength.trans_le (List.length_filter_le _ _)
  refine ⟨_, readModule_eq_ok_iff.mpr ⟨header, h, rfl⟩, hspec, rfl, ?_⟩
  rw [Module.exports, hspec]
  refine ⟨hnames, fun e he => ?_, hbody, ?_, fun hcount => Nat.le_min.mpr ⟨?_, hbody⟩⟩
  · have hmem := hnames ▸ List.mem_map_of_mem he
    obtain ⟨hdeclared, hlisted⟩ := List.mem_filter.mp hmem
    exact ⟨of_decide_eq_true hlisted, hdeclared⟩
  · rw [Nat.le_min, and_iff_left hbody, hlength, List.countP_eq_length_filter]
  · have hle := length_filter_le_of_count_le hcount
    rwa [← hlength, listed, List.length_map] at hle

/-- A name that is listed twice and declared twice, and one that is declared only. -/
theorem readModule_selects_sample :
    let text := "module A exposing (f, T, f)\nf : Int\nf = 1\ng : T\ng = 2\nf : T\nf = 3\n".toList
    ∃ m, readModule text = .ok m ∧ m.exports.map (·.name) = ["f", "f"] ∧
      m.exports.length ≤ min 3 (declared m.declarations).length := by
  intro text
  have h : readHeader text = .ok ⟨.list [.function "f" none, .type "T" none, .function "f" none],
      "A", "\nf : Int\nf = 1\ng : T\ng = 2\nf : T\nf = 3\n".toList⟩ := by
    decide +kernel
  obtain ⟨m, hread, -, hbody, hnames, -, -, -, hbound⟩ := readModule_selects h rfl
  have hdeclared : declared m.declarations = ["f", "g", "f"] := by
    rw [hbody]
    decide +kernel
  refine ⟨m, hread, ?_, hbound ?_⟩
  · rw [hnames, hdeclared]
    decide
  · rw [hdeclared]
    decide

/-- One item lets two entries through: the second one is read out of a text of several lines that
only looks like an annotation. -/
theorem readModule_exceeds :
    let text := "module A exposing (f)\nf : Int\nf = 1\ng = \"\"\"\nf : Int\nf\n\"\"\"\n".toList
    ∃ m, readModule text = .ok m ∧ m.spec = .list [.function "f" none] ∧
      declared m.declarations = ["f", "f"] ∧
      m.exports = [.function "f" (some ["Int"]), .function "f" (some ["Int"])] ∧
      ¬ m.exports.length ≤ min 1 (declared m.declarations).length := by
  intro text
  refine ⟨⟨.list [.function "f" none],
    [.function "f" (some ["Int"]), .function "f" (some ["Int"])], "A"⟩, ?_, rfl, ?_, ?_, ?_⟩
  · decide +kernel
  · decide
  · decide
  · decide

end SignatureSearch.Elm
