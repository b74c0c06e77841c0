/-
# `Proofs.Settings.Sources` — where the value of a setting comes from

`load` looks at nothing but the values of the names (`value?`):

    the value of a name      what is given directly counts, then what the environment has last
    the fields               the values that the names have (`gather_eq_ok_iff`)
    the settings             each is read from the field of its name (`ofFields_eq_valid_iff`)

So a value for one list setting changes this setting and leaves the others
alone, whichever source it comes from (`load_given`, `load_environment`).
-/
import Mathlib.Logic.Function.Basic
import SignatureSearch.Proofs.Store.Calls
import SignatureSearch.Proofs.Validation.Fields
import SignatureSearch.Settings

namespace SignatureSearch.Settings

open Validation Checked

/-! ## Settings that are lists -/

inductive ListSetting where
  | sourceExtensions
  | sourceFolders
  | corsOrigins
deriving DecidableEq, Repr

namespace ListSetting

def name : ListSetting → String
  | .sourceExtensions => "source_extensions"
  | .sourceFolders => "source_folders"
  | .corsOrigins => "cors_origins"

def value (s : Settings) : ListSetting → List String
  | .sourceExtensions => s.sourceExtensions
  | .sourceFolders => s.sourceFolders
  | .corsOrigins => s.corsOrigins

def put (s : Settings) (items : List String) : ListSetting → Settings
  | .sourceExtensions => { s with sourceExtensions := items }
  | .sourceFolders => { s with sourceFolders := items }
  | .corsOrigins => { s with corsOrigins := items }

theorem name_mem_listNames (setting : ListSetting) : setting.name ∈ listNames := by
  cases setting <;> decide

theorem name_mem_names (setting : ListSetting) : setting.name ∈ names :=
  List.mem_append_right _ setting.name_mem_listNames

theorem lower_name (setting : ListSetting) : Text.lower setting.name = setting.name := by
  cases setting <;> decide +kernel

end ListSetting

variable {setting : ListSetting} {environment environment' : List (String × String)}
  {given given' fields fields' : Fields} {base s : Settings} {items words : List String}

/-! ## From fields to settings -/

theorem ofFields_eq_valid_iff : ofFields fields = .valid s ↔
    defaulted fields "app_name" "Elm Function Search" text = .valid s.appName ∧
    defaulted fields "app_version" "0.1.0" text = .valid s.appVersion ∧
    defaulted fields "debug" false boolean = .valid s.debug ∧
    defaulted fields "log_level" "INFO" readLogLevel = .valid s.logLevel ∧
    defaulted fields "gcp_project_id" "fnsearch-local" text = .valid s.projectId ∧
    defaulted fields "firestore_database_id" (some "(default)") (nullable text) =
      .valid s.databaseId ∧
    defaulted fields "firestore_collection_prefix" "" text = .valid s.collectionPrefix ∧
    defaulted fields "firestore_batch_size" 500 (readPositive (some 500)) = .valid s.batchSize ∧
    defaulted fields "service_account_key_path" none (nullable text) =
      .valid s.serviceAccountKeyPath ∧
    defaulted fields "search_page_size" 10 (readPositive none) = .valid s.searchPageSize ∧
    defaulted fields "suggest_limit" 10 (readPositive none) = .valid s.suggestLimit ∧
    defaulted fields "max_page_size" 100 (readPositive none) = .valid s.maxPageSize ∧
    defaulted fields "package_catalog_url" "https://package.elm-lang.org/search.json" text =
      .valid s.catalogUrl ∧
    defaulted fields "git_host_url" "https://github.com" text = .valid s.gitHostUrl ∧
    defaulted fields "repo_cache_dir" "./repo_cache" text = .valid s.repoCacheDir ∧
    defaulted fields "git_timeout" 120 integer = .valid s.gitTimeout ∧
    defaulted fields "scrape_workers" 4 (readPositive none) = .valid s.scrapeWorkers ∧
    defaulted fields "source_extensions" [".elm"] readList = .valid s.sourceExtensions ∧
    defaulted fields "source_folders" ["src"] readList = .valid s.sourceFolders ∧
    defaulted fields "cors_origins" ["*"] readList = .valid s.corsOrigins := by
  cases s
  simp only [ofFields, Validation.optional, seq_eq_valid, map_eq_valid_iff, existsAndEq,
    and_true, exists_and_left, mk.injEq, and_assoc]

theorem defaulted_of_ofFields (h : ofFields fields = .valid s) (setting : ListSetting) :
    defaulted fields setting.name (setting.value {}) readList = .valid (setting.value s) := by
  rw [ofFields_eq_valid_iff] at h
  cases setting <;> simp only [ListSetting.name, ListSetting.value, h]

/-- Another value for the field of a list setting changes this setting only. -/
theorem ofFields_put {v : Json}
    (hothers : ∀ name, name ≠ setting.name → Json.field? fields' name = Json.field? fields name)
    (hfield : Json.field? fields' setting.name = some v) (hread : readList v = .valid words)
    (h : ofFields fields = .valid base) :
    ofFields fields' = .valid (setting.put base words) := by
  have hsame : ∀ {α : Type} (name : String) (d : α) (read : Reader α), name ≠ setting.name →
      defaulted fields' name d read = defaulted fields name d read := by
    intro α name d read hname
    rw [defaulted, defaulted, hothers name hname]
  have hnew : ∀ d, defaulted fields' setting.name d readList = .valid words :=
    defaulted_eq_valid hfield hread
  rw [ofFields_eq_valid_iff] at h ⊢
  cases setting <;> simp only [ListSetting.name] at hsame hnew <;>
    simp only [hsame, ne_eq, String.reduceEq, not_false_eq_true, hnew, ListSetting.put, h,
      and_self]

theorem ofFields_eq_valid_iff_put {v : Json}
    (hothers : ∀ name, name ≠ setting.name → Json.field? fields' name = Json.field? fields name)
    (hfield : Json.field? fields' setting.name = some v) (h : ofFields fields = .valid base) :
    ofFields fields' = .valid s ↔
      ∃ words, readList v = .valid words ∧ setting.put base words = s := by
  constructor
  · intro hs
    have hread := defaulted_of_ofFields hs setting
    rw [defaulted, hfield] at hread
    dsimp only at hread
    rw [within_eq_valid] at hread
    refine ⟨setting.value s, hread, ?_⟩
    rw [ofFields_put hothers hfield hread h] at hs
    exact Checked.valid.inj hs
  · rintro ⟨words, hread, rfl⟩
    exact ofFields_put hothers hfield hread h

/-! ## From sources to fields -/

/-- The value of a name: what is given directly, or else what the environment has. -/
def value? (environment : List (String × String)) (given : Fields) (name : String) :
    Except Error (Option Json) :=
  (environmentValue? environment name).map (lookup? given name).or

def fieldsOf (found : String → Option Json) (names : List String) : Fields :=
  names.filterMap fun name => (found name).map (name, ·)

theorem find?_fieldsOf (found : String → Option Json) (names : List String) (name : String) :
    ((fieldsOf found names).find? (·.1 == name)).map (·.2) =
      if name ∈ names then found name else none := by
  induction names with
  | nil => rfl
  | cons first rest ih =>
      unfold fieldsOf at ih ⊢
      by_cases hname : name = first
      · subst hname
        rw [if_pos List.mem_cons_self]
        cases hfound : found name with
        | none =>
            rw [hfound, ite_self] at ih
            rw [List.filterMap_cons_none (by rw [hfound]; rfl), ih]
        | some v =>
            rw [List.filterMap_cons_some (by rw [hfound]; rfl), List.find?_cons_of_pos (by simp)]
            rfl
      · have hmem : (name ∈ first :: rest) = (name ∈ rest) := by
          simp [hname]
        simp only [hmem]
        cases hfound : found first with
        | none => rw [List.filterMap_cons_none (by rw [hfound]; rfl), ih]
        | some v =>
            rw [List.filterMap_cons_some (by rw [hfound]; rfl),
              List.find?_cons_of_neg (by simpa using Ne.symm hname), ih]

theorem field?_fieldsOf (found : String → Option Json) (names : List String) (name : String) :
    Json.field? (fieldsOf found names) name = if name ∈ names then found name else none := by
  have hreverse : (fieldsOf found names).reverse = fieldsOf found names.reverse :=
    List.filterMap_reverse.symm
  unfold Json.field?
  rw [hreverse, find?_fieldsOf]
  simp only [List.mem_reverse]

theorem gathered_eq_ok_iff {name : String} {field : Option (String × Json)} :
    (do
      let fromEnvironment ← environmentValue? environment name
      return ((lookup? given name).or fromEnvironment).map (name, ·)) = Except.ok field ↔
        ∃ v, value? environment given name = .ok v ∧ v.map (name, ·) = field := by
  unfold value?
  cases environmentValue? environment name with
  | error e => exact iff_of_false nofun fun ⟨v, hv, _⟩ => absurd hv nofun
  | ok fromEnvironment =>
      constructor
      · intro h
        exact ⟨_, rfl, Except.ok.inj h⟩
      · rintro ⟨v, hv, rfl⟩
        obtain rfl := Except.ok.inj hv
        rfl

theorem gather_eq_ok_iff : gather environment given = .ok fields ↔
    ∃ found : String → Option Json,
      (∀ name ∈ names, value? environment given name = .ok (found name)) ∧
        fieldsOf found names = fields := by
  unfold gather
  rw [Store.bind_eq_ok]
  constructor
  · rintro ⟨row, hrow, hfields⟩
    obtain rfl := Except.ok.inj hfields
    have hall := (Store.forall₂_of_mapM_eq_ok hrow).imp fun _ _ => gathered_eq_ok_iff.mp
    let found name := (value? environment given name).toOption.join
    have hfound : ∀ name v, value? environment given name = .ok v → found name = v := by
      intro name v hv
      show (value? environment given name).toOption.join = v
      rw [hv]
      rfl
    refine ⟨found, ?_, ?_⟩
    · intro name hname
      obtain ⟨field, -, hfield⟩ := Store.exists_mem_of_mapM hrow hname
      obtain ⟨v, hv, -⟩ := gathered_eq_ok_iff.mp hfield
      rw [hv, hfound name v hv]
    · have hfields : names.map (fun name => (found name).map (name, ·)) = row := by
        rw [← List.forall₂_eq_eq_eq, List.forall₂_map_left_iff]
        refine hall.imp fun name field => ?_
        rintro ⟨v, hv, hfield⟩
        rw [hfound name v hv, hfield]
      rw [← hfields, List.filterMap_map]
      rfl
  · rintro ⟨found, hfound, rfl⟩
    refine ⟨names.map fun name => (found name).map (name, ·), ?_, ?_⟩
    · refine Store.mapM_eq_ok_of_forall₂ ?_
      rw [List.forall₂_map_right_iff, List.forall₂_same]
      intro name hname
      exact gathered_eq_ok_iff.mpr ⟨found name, hfound name hname, rfl⟩
    · rw [List.filterMap_map]
      rfl

theorem load_eq_ok_iff : load environment given = .ok s ↔
    ∃ fields, gather environment given = .ok fields ∧ tooDeep? fields = none ∧
      ofFields fields = .valid s := by
  unfold load
  rw [Store.bind_eq_ok]
  refine exists_congr fun fields => and_congr_right fun _ => ?_
  cases tooDeep? fields with
  | some container => exact iff_of_false nofun fun h => absurd h.1 nofun
  | none =>
      cases ofFields fields with
      | valid t =>
          exact ⟨fun h => ⟨rfl, congrArg _ (Except.ok.inj h)⟩,
            fun h => congrArg _ (Checked.valid.inj h.2)⟩
      | invalid issues => exact iff_of_false nofun fun h => absurd h.2 nofun

/-- A value that is no text of JSON that is nested too deep. -/
def IsShallow (v : Json) : Prop :=
  ∀ text container, v = .str text → Json.read text.toList ≠ .error (.tooDeep container)

theorem isShallow_str {encoded : String}
    (h : ∀ container, Json.read encoded.toList ≠ .error (.tooDeep container)) :
    IsShallow (.str encoded) := by
  intro text container htext
  rw [← Json.str.inj htext]
  exact h container

theorem tooDeep?_eq_none_iff : tooDeep? fields = none ↔
    ∀ name ∈ listNames, ∀ v, Json.field? fields name = some v → IsShallow v := by
  unfold tooDeep?
  rw [List.findSome?_eq_none_iff]
  refine forall₂_congr fun name _ => ?_
  constructor
  · rintro h v hfield text container rfl hread
    rw [hfield] at h
    dsimp only at h
    rw [hread] at h
    exact absurd h nofun
  · intro h
    split
    · rename_i text hfield
      split
      · rename_i container hread
        exact absurd hread (h _ hfield text container rfl)
      · rfl
    · rfl

/-! ## Another value for a list setting -/

/-- Where one list setting has another value, and the other names have the values they had, the
settings are the same but for this one. -/
theorem load_of_value? {v : Json}
    (hothers : ∀ name ∈ names, name ≠ setting.name →
      value? environment' given' name = value? environment given name)
    (hvalue : value? environment' given' setting.name = .ok (some v)) (hshallow : IsShallow v)
    (h : load environment given = .ok base) :
    load environment' given' = .ok s ↔
      ∃ words, readList v = .valid words ∧ setting.put base words = s := by
  obtain ⟨fields, hgather, htooDeep, hfields⟩ := load_eq_ok_iff.mp h
  obtain ⟨found, hfound, rfl⟩ := gather_eq_ok_iff.mp hgather
  let found' := Function.update found setting.name (some v)
  have hgather' : gather environment' given' = .ok (fieldsOf found' names) := by
    refine gather_eq_ok_iff.mpr ⟨found', fun name hname => ?_, rfl⟩
    by_cases hsetting : name = setting.name
    · have hnew : found' setting.name = some v := Function.update_self ..
      rw [hsetting, hvalue, hnew]
    · have hsame : found' name = found name := Function.update_of_ne hsetting ..
      rw [hothers name hname hsetting, hfound name hname, hsame]
  have hnew : Json.field? (fieldsOf found' names) setting.name = some v := by
    rw [field?_fieldsOf, if_pos setting.name_mem_names]
    exact Function.update_self ..
  have hold : ∀ name, name ≠ setting.name →
      Json.field? (fieldsOf found' names) name = Json.field? (fieldsOf found names) name := by
    intro name hname
    have hsame : found' name = found name := Function.update_of_ne hname ..
    rw [field?_fieldsOf, field?_fieldsOf, hsame]
  have htooDeep' : tooDeep? (fieldsOf found' names) = none := by
    refine tooDeep?_eq_none_iff.mpr fun name hname w hfield => ?_
    by_cases hsetting : name = setting.name
    · rw [hsetting, hnew] at hfield
      obtain rfl := Option.some.inj hfield
      exact hshallow
    · rw [hold name hsetting] at hfield
      exact tooDeep?_eq_none_iff.mp htooDeep name hname w hfield
  rw [← ofFields_eq_valid_iff_put hold hnew hfields, load_eq_ok_iff]
  constructor
  · rintro ⟨fields, hfields, -, hs⟩
    rw [hgather'] at hfields
    obtain rfl := Except.ok.inj hfields
    exact hs
  · intro hs
    exact ⟨_, hgather', htooDeep', hs⟩

theorem environmentValue?_of_load (h : load environment given = .ok base)
    (setting : ListSetting) : ∃ w, environmentValue? environment setting.name = .ok w := by
  obtain ⟨fields, hgather, -⟩ := load_eq_ok_iff.mp h
  obtain ⟨found, hfound, -⟩ := gather_eq_ok_iff.mp hgather
  have hvalue := hfound setting.name setting.name_mem_names
  unfold value? at hvalue
  cases hw : environmentValue? environment setting.name with
  | error e =>
      rw [hw] at hvalue
      exact absurd hvalue nofun
  | ok w => exact ⟨w, rfl⟩

theorem lookup?_cons {α : Type} {spelling name : String} {v : α} {rest : List (String × α)} :
    lookup? ((spelling, v) :: rest) name =
      if Text.lower spelling = name then some v else lookup? rest name := by
  unfold lookup?
  rw [List.find?_cons]
  by_cases hname : Text.lower spelling = name
  · rw [if_pos hname, beq_iff_eq.mpr hname]
    rfl
  · rw [if_neg hname, beq_eq_false_iff_ne.mpr hname]

theorem load_given {v : Json} (hshallow : IsShallow v) (h : load environment given = .ok base) :
    load environment ((setting.name, v) :: given) = .ok s ↔
      ∃ words, readList v = .valid words ∧ setting.put base words = s := by
  refine load_of_value? (fun name _ hname => ?_) ?_ hshallow h
  · unfold value?
    rw [lookup?_cons, setting.lower_name, if_neg (Ne.symm hname)]
  · obtain ⟨w, hw⟩ := environmentValue?_of_load h setting
    unfold value?
    rw [hw, lookup?_cons, setting.lower_name, if_pos rfl]
    rfl

/-- What the environment has last for a list setting counts if nothing is given directly. -/
theorem load_environment {spelling encoded : String} {v : Json}
    (hspelling : Text.lower spelling = setting.name) (hread : Json.read encoded.toList = .ok v)
    (hnull : v ≠ .null) (hshallow : IsShallow v) (hgiven : lookup? given setting.name = none)
    (h : load environment given = .ok base) :
    load (environment ++ [(spelling, encoded)]) given = .ok s ↔
      ∃ words, readList v = .valid words ∧ setting.put base words = s := by
  have hlookup : ∀ name, lookup? (environment ++ [(spelling, encoded)]).reverse name =
      if setting.name = name then some encoded else lookup? environment.reverse name := by
    intro name
    rw [List.reverse_append, List.reverse_singleton, List.singleton_append, lookup?_cons,
      hspelling]
  refine load_of_value? (fun name _ hname => ?_) ?_ hshallow h
  · unfold value? environmentValue?
    rw [hlookup, if_neg (Ne.symm hname)]
  · have hlist : listNames.contains setting.name = true :=
      List.contains_iff_mem.mpr setting.name_mem_listNames
    unfold value? environmentValue?
    rw [hlookup, if_pos rfl, hgiven]
    dsimp only
    rw [if_pos hlist, hread]
    cases v with
    | null => exact absurd rfl hnull
    | _ => rfl

end SignatureSearch.Settings
