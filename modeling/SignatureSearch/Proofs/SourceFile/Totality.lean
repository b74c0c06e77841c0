/-
# `Proofs.SourceFile.Totality` — a file always has an outcome, all of it or nothing

Reading a file makes records, and a record that its check refuses would stop
whoever reads the file.  No check ever refuses:

    a declaration    that is read has a name, as a function (`IsRead`)
    a clause         is made whatever its items are
    an entry         has the fields of its kind only

So reading with every check is reading without (`readChecked_eq`,
`outcomeChecked_eq`), and a file is either a module with all its parts or one
error with nothing beside it (`outcome_total`).  An error of the header has a
place in the text.
-/
import SignatureSearch.Proofs.Elm.Resolution
import SignatureSearch.Proofs.Signature.Terms
import SignatureSearch.Proofs.Validation.Fields
import SignatureSearch.SourceFile.Checked

namespace SignatureSearch

/-! ## What is declared in a body -/

namespace Elm

/-- A declaration as bodies have them: a function has a name of its kind and terms, and a type has a
name of its kind. -/
inductive Declaration.IsRead : Declaration → Prop
  | comment (text : String) : IsRead (.comment text)
  | function {name : List Char} {terms : List String} : IsName .function name → terms ≠ [] →
      IsRead (.function (String.ofList name) (some terms))
  | type {name : List Char} (definition : Option String) (isAlias : Bool) : IsName .type name →
      IsRead (.type (String.ofList name) definition isAlias)

theorem terms_ne_nil (body : List Char) : Signature.terms body ≠ [] := by
  rw [Signature.terms, ne_eq, List.map_eq_nil_iff]
  exact Signature.splitArrows_ne_nil body

/-- A piece that is found by a rule, and is kept, is a declaration as bodies have them. -/
theorem FirstRule.isRead {lineStart : Prop} {cs : List Char} {p : Piece}
    (h : FirstRule lineStart cs p) (hkept : p.declaration.isKept = true) :
    p.declaration.IsRead := by
  cases h with
  | comment hrule =>
      cases hrule
      exact .comment _
  | function _ _ hrule =>
      cases hrule with
      | intro hname _ _ _ _ _ => exact .function hname (terms_ne_nil _)
  | type _ _ _ hrule =>
      cases hrule with
      | intro _ _ _ hname _ _ _ => exact .type _ _ hname
  | character _ _ => exact absurd hkept Bool.false_ne_true

theorem pieces_induction {P : Piece → Prop}
    (hnext : ∀ lineStart c cs, P (nextPiece lineStart c cs)) (last : Char) (cs : List Char) :
    ∀ p ∈ pieces last cs, P p := by
  induction hn : cs.length using Nat.strong_induction_on generalizing last cs with
  | _ n ih =>
      intro p hp
      cases cs with
      | nil =>
          rw [pieces] at hp
          exact absurd hp List.not_mem_nil
      | cons c cs =>
          rw [pieces] at hp
          rcases List.mem_cons.mp hp with rfl | hrest
          · exact hnext _ c cs
          · have hlt := (covers_nextPiece (last = '\n') c cs).length_lt
            exact ih _ (hn ▸ hlt) _ _ rfl p hrest

theorem isRead_of_mem_readBody {body : List Char} {d : Declaration} (h : d ∈ readBody body) :
    d.IsRead := by
  obtain ⟨hmem, hkept⟩ := List.mem_filter.mp h
  obtain ⟨p, hp, rfl⟩ := List.mem_map.mp hmem
  refine pieces_induction (P := fun p => p.declaration.isKept = true → p.declaration.IsRead) ?_
    ')' body p hp hkept
  intro lineStart c cs
  exact (firstRule_iff.mpr rfl).isRead

theorem isRead_of_readModule {text : List Char} {m : Module} (h : readModule text = .ok m) :
    ∀ d ∈ m.declarations, d.IsRead := by
  obtain ⟨header, -, rfl⟩ := readModule_eq_ok_iff.mp h
  intro d hd
  exact isRead_of_mem_readBody hd

/-! ## Records are made of what is read -/

open Validation

theorem ExportedName.ofJson_toFields (n : ExportedName) : ofJson (.obj n.toFields) = .valid n := by
  cases n with
  | type name definition =>
      let fields := (ExportedName.type name definition).toFields
      have hname : required fields "name" Validation.text = .valid name :=
        required_text (by simp [fields, Json.field?, toFields])
      have hdefinition : optional fields "definition" Validation.text = .valid definition :=
        optional_text (by simp [fields, Json.field?, toFields])
      show (ExportedName.type <$> required fields "name" Validation.text <*>
        optional fields "definition" Validation.text).within (.field "type") = _
      rw [hname, hdefinition]
      rfl
  | function name signature =>
      let fields := (ExportedName.function name signature).toFields
      have hname : required fields "name" Validation.text = .valid name :=
        required_text (by simp [fields, Json.field?, toFields])
      have hsignature :
          optional fields "typeSignature" (Validation.list Validation.text) = .valid signature :=
        optional_terms (by simp [fields, Json.field?, toFields])
      show (ExportedName.function <$> required fields "name" Validation.text <*>
        optional fields "typeSignature" (Validation.list Validation.text)).within
          (.field "function") = _
      rw [hname, hsignature]
      rfl

theorem ExportSpec.ofJson_toFields (spec : ExportSpec) : ofJson (.obj spec.toFields) = .valid spec := by
  cases spec with
  | all => rfl
  | list names =>
      let fields := (ExportSpec.list names).toFields
      have hnames : defaulted fields "names" [] (Validation.list ExportedName.ofJson) =
          .valid names :=
        defaulted_eq_valid (by simp [fields, Json.field?, toFields])
          (list_map fun n _ => n.ofJson_toFields) []
      show (ExportSpec.list <$>
        defaulted fields "names" [] (Validation.list ExportedName.ofJson)).within (.field "list") = _
      rw [hnames]
      rfl

theorem IsName.ofList_ne_empty {kind : NameKind} {name : List Char} (h : IsName kind name) :
    String.ofList name ≠ "" := by
  intro hempty
  exact h.ne_nil (by simpa using congrArg String.toList hempty)

theorem Declaration.IsRead.ofJson_toFields {d : Declaration} (h : d.IsRead) :
    Declaration.ofJson (.obj d.toFields) = .valid d := by
  cases h with
  | comment text => rfl
  | @function name terms hname _ =>
      let fields := (Declaration.function (String.ofList name) (some terms)).toFields
      have hread : readFunctionName (.str (String.ofList name)) = .valid (String.ofList name) := by
        rw [readFunctionName, Validation.refine, Validation.text, Checked.andThen,
          if_neg hname.ofList_ne_empty]
      have hfield : required fields "name" readFunctionName = .valid (String.ofList name) :=
        required_eq_valid (by simp [fields, Json.field?, toFields]) hread
      have hsignature :
          optional fields "typeSignature" (Validation.list Validation.text) = .valid (some terms) :=
        optional_terms (by simp [fields, Json.field?, toFields])
      show (Declaration.function <$> required fields "name" readFunctionName <*>
        optional fields "typeSignature" (Validation.list Validation.text)).within
          (.field "function") = _
      rw [hfield, hsignature]
      rfl
  | @type name definition isAlias _ =>
      let fields := (Declaration.type (String.ofList name) definition isAlias).toFields
      have hfield : required fields "name" Validation.text = .valid (String.ofList name) :=
        required_text (by simp [fields, Json.field?, toFields])
      have hdefinition : optional fields "definition" Validation.text = .valid definition :=
        optional_text (by simp [fields, Json.field?, toFields])
      have hread : boolean (.bool isAlias) = .valid isAlias := rfl
      have halias : defaulted fields "alias" false boolean = .valid isAlias :=
        defaulted_eq_valid (by simp [fields, Json.field?, toFields]) hread false
      show (Declaration.type <$> required fields "name" Validation.text <*>
        optional fields "definition" Validation.text <*>
        defaulted fields "alias" false boolean).within (.field "type") = _
      rw [hfield, hdefinition, halias]
      rfl

/-- An entry is made of fields with its name, the word for its kind and what belongs to it. -/
theorem ExportEntry.ofJson_eq {fields : Fields} {p : Parts} {e : ExportEntry}
    (hname : Json.field? fields "name" = some (.str p.name))
    (hkind : required fields "kind" (word [NameKind.function.text, NameKind.type.text]) =
      .valid p.kind)
    (hsignature : Validation.optional fields "typeSignature" (Validation.list Validation.text) =
      .valid p.signature)
    (hdefinition : Validation.optional fields "definition" Validation.text = .valid p.definition)
    (hparts : ofParts (.obj fields) p = .valid e) : ofJson (.obj fields) = .valid e := by
  show (Parts.mk <$> required fields "name" Validation.text <*>
    required fields "kind" (word [NameKind.function.text, NameKind.type.text]) <*>
    Validation.optional fields "typeSignature" (Validation.list Validation.text) <*>
    Validation.optional fields "definition" Validation.text).andThen (ofParts (.obj fields)) = _
  rw [required_text hname, hkind, hsignature, hdefinition]
  exact hparts

/-- An entry is made of the fields that are chosen for it, and is the one that is chosen. -/
theorem map_make_entryFields? (exported : Option ExportedName) (d : Declaration) :
    (entryFields? exported d).map (make ExportEntry.ofJson) = ( toEntry? exported d).map .ok := by
  have hmake : ∀ {fields : Fields} {e : ExportEntry}, ExportEntry.ofJson (.obj fields) = .valid e →
      (some fields).map (make ExportEntry.ofJson) = (some e).map .ok := by
    intro fields e h
    rw [Option.map_some, Option.map_some, make, h]
    rfl
  cases d with
  | comment text => rfl
  | ignore => rfl
  | function name signature =>
      let given := signature.or (exported.bind (·.signature?))
      refine hmake (ExportEntry.ofJson_eq (p := ⟨name, NameKind.function.text, given, none⟩)
        ?_ ?_ ?_ ?_ rfl)
      · simp [Json.field?]
      · exact required_eq_valid (v := .str NameKind.function.text) (by simp [Json.field?]) rfl
      · exact optional_terms (by simp [Json.field?, given])
      · exact optional_eq_none (by simp [Json.field?])
  | type name definition isAlias =>
      let given := definition.or (exported.bind (·.definition?))
      refine hmake (ExportEntry.ofJson_eq (p := ⟨name, NameKind.type.text, none, given⟩)
        ?_ ?_ ?_ ?_ rfl)
      · simp [Json.field?]
      · exact required_eq_valid (v := .str NameKind.type.text) (by simp [Json.field?]) rfl
      · exact optional_eq_none (by simp [Json.field?])
      · exact optional_text (by simp [Json.field?, given])

/-- The same under an exposing clause, where a name that is not listed has neither. -/
theorem map_make_entryFieldsUnder? (spec : ExportSpec) (d : Declaration) :
    (entryFieldsUnder? spec d).map (make ExportEntry.ofJson) = (entryUnder? spec d).map .ok := by
  cases spec with
  | all => exact map_make_entryFields? none d
  | list names =>
      rw [entryFieldsUnder?, entryUnder?]
      cases d.name? with
      | none => rfl
      | some name =>
          dsimp only [Option.bind_some]
          cases names.find? (·.name == name) with
          | none => rfl
          | some exported => exact map_make_entryFields? (some exported) d

/-! ## Reading with every check -/

theorem resolveChecked_eq (spec : ExportSpec) (ds : List Declaration) :
    resolveChecked spec ds = .ok (resolve spec ds) := by
  have hmade : (ds.filterMap (entryFieldsUnder? spec)).map (make ExportEntry.ofJson) =
      (resolve spec ds).map .ok := by
    rw [resolve, List.map_filterMap, List.map_filterMap]
    exact List.filterMap_congr fun d _ => map_make_entryFieldsUnder? spec d
  rw [resolveChecked, resolveGiven_ok]
  exact mapM_eq_ok_of_map hmade

/-- A module is read with every check as it is without: only a text without a header stops. -/
theorem readChecked_eq (text : List Char) :
    readChecked text =
      match readModule text with
      | .ok m => .ok (m, m.exports)
      | .error e => .error (.noModule e) := by
  cases h : readModule text with
  | error e =>
      rw [readChecked, h]
      rfl
  | ok m =>
      have hspec : make ExportSpec.ofJson m.spec.toFields = .ok m.spec := by
        rw [make, ExportSpec.ofJson_toFields]
        rfl
      have hmade : m.declarations.map (fun d => make Declaration.ofJson d.toFields) =
          m.declarations.map .ok := by
        refine List.map_congr_left fun d hd => ?_
        rw [make, (isRead_of_readModule h d hd).ofJson_toFields]
        rfl
      rw [readChecked, h]
      show (make ExportSpec.ofJson m.spec.toFields >>= fun spec =>
        m.declarations.mapM (fun d => make Declaration.ofJson d.toFields) >>= fun declarations =>
          resolveChecked spec declarations >>= fun exports =>
            pure ((⟨spec, declarations, m.name⟩ : Module), exports)) = _
      rw [hspec, mapM_eq_ok_of_map hmade]
      show (resolveChecked m.spec m.declarations >>= fun exports => pure (m, exports)) = _
      rw [resolveChecked_eq]
      rfl

/-! ## The entries of a module -/

/-- An entry as modules have them: a function with terms and a name of its kind, or a type, which
has no signature, with a name of its kind. -/
inductive ExportEntry.IsProper : ExportEntry → Prop
  | function {name : List Char} {terms : List String} : IsName .function name → terms ≠ [] →
      IsProper (.function (String.ofList name) (some terms))
  | type {name : List Char} (definition : Option String) : IsName .type name →
      IsProper (.type (String.ofList name) definition)

theorem isProper_of_toEntry? {exported : Option ExportedName} {d : Declaration} {e : ExportEntry}
    (hd : d.IsRead) (h : toEntry? exported d = some e) : e.IsProper := by
  cases hd with
  | comment text => exact absurd h nofun
  | function hname hterms =>
      obtain rfl := Option.some.inj h
      exact .function hname hterms
  | type definition isAlias hname =>
      obtain rfl := Option.some.inj h
      exact .type _ hname

theorem isProper_of_mem_exports {text : List Char} {m : Module} (h : readModule text = .ok m) :
    ∀ e ∈ m.exports, e.IsProper := by
  intro e he
  obtain ⟨d, hd, hentry⟩ := List.mem_filterMap.mp he
  have hread := isRead_of_readModule h d hd
  cases hspec : m.spec with
  | all =>
      rw [hspec] at hentry
      exact isProper_of_toEntry? hread hentry
  | list names =>
      rw [hspec] at hentry
      obtain ⟨name, -, hname⟩ := Option.bind_eq_some_iff.mp hentry
      obtain ⟨exported, -, hsome⟩ := Option.bind_eq_some_iff.mp hname
      exact isProper_of_toEntry? hread hsome

end Elm

namespace SourceFile

/-- A file is read with every check as it is without, and always has an outcome. -/
theorem outcomeChecked_eq (path : String) (content : Content) :
    outcomeChecked path content = .ok (outcome path content) := by
  unfold outcomeChecked outcome read
  cases Language.ofPath path with
  | unknown => rfl
  | elm =>
      dsimp only
      cases content.decode path with
      | error failure => rfl
      | ok text =>
          have hchecked := Elm.readChecked_eq text
          dsimp only [bind, Except.bind]
          cases hread : Elm.readModule text with
          | error e =>
              rw [hread] at hchecked
              exact congrArg outcomeOf hchecked
          | ok m =>
              rw [hread] at hchecked
              exact congrArg outcomeOf hchecked

/-- What comes of a file: a reason why it is not read, or a module.  A fault of the header has a
place in the text. -/
inductive Reads (path : String) : Content → Except Failure Elm.Module → Prop
  | unsupported {content : Content} : Language.ofPath path = .unknown →
      Reads path content (.error (.unsupported path))
  | notUtf8 {bytes : List UInt8} {failure : Text.Utf8.Failure} : Language.ofPath path = .elm →
      Text.Utf8.decode bytes = .error failure →
      Reads path (.bytes bytes) (.error (.notUtf8 path failure))
  | noModule {content : Content} {text : List Char} {error : Elm.ParseError} :
      Language.ofPath path = .elm → content.decode path = .ok text →
      Elm.readModule text = .error error → error.position ≤ text.length →
      Reads path content (.error (.noModule error))
  | module {content : Content} {text : List Char} {m : Elm.Module} :
      Language.ofPath path = .elm → content.decode path = .ok text →
      Elm.readModule text = .ok m → Reads path content (.ok m)

theorem decode_eq_error {path : String} {content : Content} {failure : Failure}
    (h : content.decode path = .error failure) : ∃ bytes reason,
      content = .bytes bytes ∧ Text.Utf8.decode bytes = .error reason ∧
      failure = .notUtf8 path reason := by
  cases content with
  | text s => exact absurd h nofun
  | bytes b =>
      rw [Content.decode] at h
      cases hbytes : Text.Utf8.decode b with
      | ok cs =>
          rw [hbytes] at h
          exact absurd h nofun
      | error reason =>
          rw [hbytes] at h
          exact ⟨b, reason, rfl, hbytes, (Except.error.inj h).symm⟩

theorem reads (path : String) (content : Content) : Reads path content (read path content) := by
  unfold read
  cases hlanguage : Language.ofPath path with
  | unknown => exact .unsupported hlanguage
  | elm =>
      dsimp only
      cases hdecode : content.decode path with
      | error failure =>
          obtain ⟨bytes, reason, rfl, hbytes, rfl⟩ := decode_eq_error hdecode
          exact .notUtf8 hlanguage hbytes
      | ok text =>
          show Reads path content ((Elm.readModule text).mapError .noModule)
          cases hheader : Elm.readHeader text with
          | ok header =>
              have hm := Elm.readModule_eq_ok_iff.mpr ⟨header, hheader, rfl⟩
              rw [hm]
              exact .module hlanguage hdecode hm
          | error stuck =>
              obtain ⟨p, hp, -, herror⟩ := Elm.readModule_eq_error hheader
              rw [herror]
              exact .noModule hlanguage hdecode herror hp

/-- **A file always has an outcome, all of it or nothing.**  No check of a part stops the reading.
The outcome is a module with all its parts, the entries being what its clause lets through of its
declarations and each as modules have them; or it is one error, for a reason that the file gives,
and nothing else.  A text stops the reading of a module for the lack of a header only, and then at a
place in it. -/
theorem outcome_total (path : String) (content : Content) :
    outcomeChecked path content = .ok (outcome path content) ∧
      ((Language.ofPath path = .elm ∧ ∃ text m, content.decode path = .ok text ∧
          Elm.readModule text = .ok m ∧
          outcome path content = ⟨.elm, m.name, m.spec, m.declarations,
            Elm.resolve m.spec m.declarations, []⟩ ∧
          ∀ e ∈ Elm.resolve m.spec m.declarations, e.IsProper) ∨
        ∃ failure, Reads path content (.error failure) ∧
          outcome path content =
            ⟨Language.ofPath path, "", .list [], [], [], [failure.message]⟩) ∧
      ∀ text : List Char,
        (∃ m, Elm.readModule text = .ok m ∧ Elm.readChecked text = .ok (m, m.exports)) ∨
          ∃ fault, ∃ p ≤ text.length, Elm.readModule text = .error ⟨fault, p⟩ ∧
            Elm.readChecked text = .error (.noModule ⟨fault, p⟩) ∧
            Elm.readHeader text = .error ⟨fault, text.drop p⟩ := by
  refine ⟨outcomeChecked_eq path content, ?_, ?_⟩
  · have hreads := reads path content
    unfold outcome
    generalize read path content = result at hreads
    cases result with
    | error failure => exact Or.inr ⟨failure, hreads, rfl⟩
    | ok m =>
        cases hreads with
        | module hlanguage hdecode hm =>
            exact Or.inl ⟨hlanguage, _, m, hdecode, hm, rfl, Elm.isProper_of_mem_exports hm⟩
  · intro text
    cases hheader : Elm.readHeader text with
    | ok header =>
        have hm := Elm.readModule_eq_ok_iff.mpr ⟨header, hheader, rfl⟩
        refine Or.inl ⟨_, hm, ?_⟩
        rw [Elm.readChecked_eq, hm]
    | error stuck =>
        obtain ⟨p, hp, hdrop, herror⟩ := Elm.readModule_eq_error hheader
        refine Or.inr ⟨stuck.fault, p, hp, herror, ?_, ?_⟩
        · rw [Elm.readChecked_eq, herror]
        · rw [hdrop]

/-- A type without a definition, which takes what the list says, and a function.  The same bytes
under the name of another language give one error. -/
theorem outcome_total_sample :
    let text := "module A exposing (f, T(..))\ntype T\nf : T -> Int\nf _ = 0\n"
    outcomeChecked "src/A.elm" (.text text) = .ok (outcome "src/A.elm" (.text text)) ∧
      (outcome "src/A.elm" (.text text)).exports =
        [.type "T" (some ".."), .function "f" (some ["T", "Int"])] ∧
      (∀ e ∈ (outcome "src/A.elm" (.text text)).exports, e.IsProper) ∧
      outcomeChecked "src/A.md" (.text text) =
        .ok ⟨.unknown, "", .list [], [], [], ["Unsupported language for file: src/A.md"]⟩ := by
  intro text
  have hm : Elm.readModule text.toList = .ok ⟨.list [.function "f" none, .type "T" (some "..")],
      [.type "T" none false, .function "f" (some ["T", "Int"])], "A"⟩ := by
    decide +kernel
  have helm : Language.ofPath "src/A.elm" = .elm := by decide +kernel
  have hother : Language.ofPath "src/A.md" = .unknown := by decide +kernel
  obtain ⟨hchecked, hread | ⟨failure, hfailed, -⟩, -⟩ := outcome_total "src/A.elm" (.text text)
  · obtain ⟨-, cs, m, hdecode, hmodule, houtcome, hproper⟩ := hread
    obtain rfl : text.toList = cs := Except.ok.inj hdecode
    obtain rfl := Except.ok.inj (hmodule.symm.trans hm)
    refine ⟨hchecked, (congrArg Outcome.exports houtcome).trans (by decide), ?_, ?_⟩
    · rw [houtcome]
      exact hproper
    · obtain ⟨hchecked', hread' | ⟨failure, hfailed, houtcome'⟩, -⟩ :=
        outcome_total "src/A.md" (.text text)
      · exact absurd (hother.symm.trans hread'.1) nofun
      · cases hfailed with
        | unsupported _ =>
            rw [hchecked', houtcome', hother]
            rfl
        | noModule hknown _ _ _ => exact absurd (hother.symm.trans hknown) nofun
  · cases hfailed with
    | unsupported hunknown => exact absurd (helm.symm.trans hunknown) nofun
    | @noModule _ cs _ _ hdecode herror _ =>
        obtain rfl : text.toList = cs := Except.ok.inj hdecode
        exact absurd (hm.symm.trans herror) nofun

end SourceFile
end SignatureSearch
