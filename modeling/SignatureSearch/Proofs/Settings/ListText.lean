/-
# `Proofs.Settings.ListText` — lists that are given as texts

A list setting can be given as a text with commas between the items.  The text
is tried as JSON first, and the environment wants JSON in any case.  So what a
text with commas comes to depends on what it is as JSON:

    no JSON         given directly, it comes to its items; and so it does from the environment,
                    where it has to stand as JSON (`Json.renderText`, by `Json.read_renderText`)
    an array        its elements are the list, from either source, if they are texts; they are
                    never the items

The second line takes items away that look like the parts of an array.  They
cannot come to the same: the texts of an array have room in it together with
their quotes (`Json.extent_le_of_read`), and the commas with their spaces do
not make up for the quotes.
-/
import SignatureSearch.Proofs.Json.Extent
import SignatureSearch.Proofs.Json.Quotation
import SignatureSearch.Proofs.Path
import SignatureSearch.Proofs.Settings.Sources
import SignatureSearch.Proofs.Signature.Terms

namespace SignatureSearch.Settings

open Validation

variable {setting : ListSetting} {environment : List (String × String)} {given : Fields}
  {base : Settings} {items words : List String}

/-! ## Texts with commas -/

/-- An item that can be told in a text with commas. -/
structure IsItem (item : String) : Prop where
  ne_empty : item ≠ ""
  trimmed : Text.trim item.toList = item.toList
  noComma : ',' ∉ item.toList

instance (item : String) : Decidable (IsItem item) :=
  decidable_of_iff (item ≠ "" ∧ Text.trim item.toList = item.toList ∧ ',' ∉ item.toList)
    ⟨fun h => ⟨h.1, h.2.1, h.2.2⟩, fun h => ⟨h.ne_empty, h.trimmed, h.noComma⟩⟩

def commaText (items : List String) : String :=
  ", ".intercalate items

theorem toList_commaText (items : List String) :
    (commaText items).toList = [',', ' '].intercalate (items.map String.toList) :=
  String.toList_intercalate

/-- The space after a comma is trimmed away; the induction needs it before the first part, too. -/
theorem map_trim_splitOn (gap : List Char) {parts : List (List Char)}
    (hgap : ∀ c ∈ gap, Text.isBlank c = true) (hne : parts ≠ [])
    (h : ∀ part ∈ parts, Text.trim part = part ∧ ',' ∉ part) :
    (Text.splitOn ',' (gap ++ [',', ' '].intercalate parts)).map Text.trim = parts := by
  induction parts generalizing gap with
  | nil => exact absurd rfl hne
  | cons part rest ih =>
      rw [List.forall_mem_cons] at h
      have hcomma : ',' ∉ gap ++ part := by
        rw [List.mem_append, not_or]
        exact ⟨fun hmem => absurd (hgap ',' hmem) (by decide), h.1.2⟩
      have hpart : Text.trim (gap ++ part) = part := by
        rw [Text.trim_gap_append hgap, h.1.1]
      cases rest with
      | nil =>
          rw [List.intercalate_singleton, Text.splitOn_of_notMem hcomma, List.map_singleton, hpart]
      | cons next rest =>
          have hspace : ∀ c ∈ [' '], Text.isBlank c = true := List.forall_mem_singleton.mpr rfl
          have happend : ∀ cs : List Char,
              gap ++ (part ++ [',', ' '] ++ cs) = gap ++ part ++ ',' :: ([' '] ++ cs) := by
            intro cs
            simp only [List.append_assoc, List.cons_append, List.nil_append]
          rw [List.intercalate_cons_cons, happend, Text.splitOn_append,
            Text.splitOn_of_notMem hcomma, List.map_append, List.map_singleton, hpart,
            ih [' '] hspace (List.cons_ne_nil _ _) h.2, List.singleton_append]

theorem commaItems_commaText (hne : items ≠ []) (h : ∀ item ∈ items, IsItem item) :
    commaItems (commaText items) = items := by
  have hparts : (Text.splitOn ',' (commaText items).toList).map Text.trim =
      items.map String.toList := by
    have hne : items.map String.toList ≠ [] := List.map_eq_nil_iff.not.mpr hne
    rw [toList_commaText]
    refine map_trim_splitOn [] nofun hne fun part hpart => ?_
    obtain ⟨item, hitem, rfl⟩ := List.mem_map.mp hpart
    exact ⟨(h item hitem).trimmed, (h item hitem).noComma⟩
  have hkeep : (items.map String.toList).filter (!·.isEmpty) = items.map String.toList := by
    refine List.filter_eq_self.mpr fun part hpart => ?_
    obtain ⟨item, hitem, rfl⟩ := List.mem_map.mp hpart
    have hitem := (h item hitem).ne_empty
    simpa using hitem
  unfold commaItems
  rw [hparts, hkeep, List.map_map]
  exact List.map_id'' (fun _ => String.ofList_toList) items

theorem readList_commaText (hne : items ≠ []) (h : ∀ item ∈ items, IsItem item)
    (hread : Json.read (commaText items).toList = .error .malformed) :
    readList (.str (commaText items)) = .valid items := by
  simp only [readList, hread, commaItems_commaText hne h]

theorem length_commaText (hne : items ≠ []) :
    (commaText items).toList.length + 2 = (items.map fun item => item.length + 2).sum := by
  rw [toList_commaText]
  induction items with
  | nil => exact absurd rfl hne
  | cons item rest ih =>
      cases rest with
      | nil =>
          rw [List.map_singleton, List.intercalate_singleton, String.length_toList]
          rfl
      | cons next rest =>
          have hsum : ((item :: next :: rest).map fun item => item.length + 2).sum =
              item.length + 2 + ((next :: rest).map fun item => item.length + 2).sum :=
            List.sum_cons
          rw [hsum, ← ih (List.cons_ne_nil _ _), List.map_cons, List.map_cons,
            List.intercalate_cons_cons, List.length_append, List.length_append,
            String.length_toList]
          simp only [List.length_cons, List.length_nil]
          omega

/-- Items do not come to themselves by the array that their text is: there is no room for their
quotes in it. -/
theorem ne_items_of_read (hne : items ≠ [])
    (hread : Json.read (commaText items).toList = .ok (.arr (words.map .str))) : words ≠ items := by
  rintro rfl
  have hle := Json.extent_le_of_read hread
  have hextent : Json.extent (.arr (words.map .str)) =
      (words.map fun word => word.length + 2).sum := by
    rw [Json.extent, List.map_map]
    rfl
  have hlength := length_commaText hne
  omega

/-! ## What a text comes to -/

/-- Items are read back from the text that they are put together to, unless JSON makes an array of
it; then the elements of the array are the list instead. -/
theorem load_commaText {spelling : String} (hne : items ≠ []) (hitems : ∀ item ∈ items, IsItem item)
    (h : load environment given = .ok base) (hgiven : lookup? given setting.name = none)
    (hspelling : Text.lower spelling = setting.name) :
    (Json.read (commaText items).toList = .error .malformed →
      load environment ((setting.name, .str (commaText items)) :: given) =
          .ok (setting.put base items) ∧
        ∀ encoded : String, Json.read encoded.toList = .ok (.str (commaText items)) →
          load (environment ++ [(spelling, encoded)]) given = .ok (setting.put base items)) ∧
    ∀ elements, Json.read (commaText items).toList = .ok (.arr elements) → ∀ s,
      (load environment ((setting.name, .str (commaText items)) :: given) = .ok s ↔
        ∃ words, elements = words.map .str ∧ words ≠ items ∧ setting.put base words = s) ∧
      (load (environment ++ [(spelling, commaText items)]) given = .ok s ↔
        ∃ words, elements = words.map .str ∧ words ≠ items ∧ setting.put base words = s) := by
  constructor
  · intro hmalformed
    have hread := readList_commaText hne hitems hmalformed
    have hshallow : IsShallow (.str (commaText items)) := isShallow_str (hmalformed ▸ nofun)
    constructor
    · exact (load_given hshallow h).mpr ⟨items, hread, rfl⟩
    · intro encoded hencoded
      exact (load_environment hspelling hencoded nofun hshallow hgiven h).mpr ⟨items, hread, rfl⟩
  · intro elements harray s
    have hwords : ∀ words, list text (.arr elements) = .valid words ↔
        elements = words.map .str ∧ words ≠ items := by
      intro words
      rw [list_text_eq_valid_iff]
      refine ⟨fun helements => ⟨helements, ?_⟩, And.left⟩
      subst helements
      exact ne_items_of_read hne harray
    constructor
    · have hread : readList (.str (commaText items)) = list text (.arr elements) := by
        simp only [readList, harray]
      rw [load_given (isShallow_str (harray ▸ nofun)) h]
      simp only [hread, hwords, and_assoc]
    · rw [load_environment hspelling harray nofun nofun hgiven h]
      simp only [readList, hwords, and_assoc]

/-- Two origins are read back from both sources, and two folders that look like an array are not. -/
theorem load_commaText_sample :
    load [] [("cors_origins", .str "https://a.example, https://b.example")] =
        .ok { corsOrigins := ["https://a.example", "https://b.example"] } ∧
      load [("CORS_ORIGINS", Json.renderText "https://a.example, https://b.example")] [] =
        .ok { corsOrigins := ["https://a.example", "https://b.example"] } ∧
      load [] [("source_folders", .str "[\"a\", \"b\"]")] =
        .ok { sourceFolders := ["a", "b"] } ∧
      load [("SOURCE_FOLDERS", "[\"a\", \"b\"]")] [] = .ok { sourceFolders := ["a", "b"] } := by
  have hdefault : load [] [] = .ok {} := by decide +kernel
  have hne : ["https://a.example", "https://b.example"] ≠ [] := List.cons_ne_nil _ _
  have hne' : ["[\"a\"", "\"b\"]"] ≠ [] := List.cons_ne_nil _ _
  have hspelling : Text.lower "CORS_ORIGINS" = ListSetting.name .corsOrigins := by decide
  have hspelling' : Text.lower "SOURCE_FOLDERS" = ListSetting.name .sourceFolders := by decide
  have horigins :=
    (load_commaText hne (by decide) hdefault rfl hspelling).1 (by decide +kernel)
  have hfolders :=
    (load_commaText hne' (by decide) hdefault rfl hspelling').2 [.str "a", .str "b"]
      (by decide +kernel) { sourceFolders := ["a", "b"] }
  exact ⟨horigins.1, horigins.2 _ (Json.read_renderText _),
    hfolders.1.mpr ⟨["a", "b"], rfl, by decide, rfl⟩,
    hfolders.2.mpr ⟨["a", "b"], rfl, by decide, rfl⟩⟩

/-- Items are not read back from every text: two folders with a bracket and quotes in their names
come to an array of two other names. -/
theorem load_misreads :
    ¬ ∀ (setting : ListSetting) (items : List String), items ≠ [] →
      (∀ item ∈ items, IsItem item) →
        (∃ s, load [] [(setting.name, .str (commaText items))] = .ok s ∧
          setting.value s = items) ∧
        ∃ s, load [(setting.name, commaText items)] [] = .ok s ∧ setting.value s = items := by
  intro h
  obtain ⟨⟨s, hs, hvalue⟩, -⟩ :=
    h .sourceFolders ["[\"a\"", "\"b\"]"] (List.cons_ne_nil _ _) (by decide)
  have hload : load [] [(ListSetting.name .sourceFolders,
      .str (commaText ["[\"a\"", "\"b\"]"]))] = .ok { sourceFolders := ["a", "b"] } := by
    decide +kernel
  rw [hload] at hs
  obtain rfl := Except.ok.inj hs
  exact absurd hvalue (by decide)

end SignatureSearch.Settings
