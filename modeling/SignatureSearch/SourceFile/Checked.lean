/-
# `SourceFile.Checked` — reading a file with every check made

The exposing clause, the declarations and the entries of a module are records,
and a record is checked when it is made from its fields.  So a module can fail
to come about although its text has a header:

    a record is refused       a function without a name, a function with a
                              definition, a type with a signature
    a value is foreign        it is no exposing clause or no declaration

Neither becomes an outcome of the file.  Only a text without a header, bytes
that are no UTF-8 and another language do; everything else stops whoever reads
the file.
-/
import SignatureSearch.Elm.Json
import SignatureSearch.SourceFile

namespace SignatureSearch

namespace Elm

/-- What stops the reading of a module. -/
inductive Stop where
  /-- The text has no header. -/
  | noModule (error : ParseError)
  /-- A record cannot be made. -/
  | refused (issues : List Validation.Issue)
  /-- A value is of no kind that is known. -/
  | foreign (error : VariantError)
deriving DecidableEq, Repr

def make {α : Type} (read : Validation.Reader α) (fields : Fields) : Except Stop α :=
  (read (.obj fields)).toExcept.mapError .refused

/-- The fields from which the entry of a declaration is made: a function is given no definition and
a type no signature. -/
def entryFields? (exported : Option ExportedName) : Declaration → Option Fields
  | .function name signature =>
    some [("name", .str name), ("kind", .str NameKind.function.text),
      ("typeSignature", termsToJson (signature.or (exported.bind (·.signature?))))]
  | .type name definition _ =>
    some [("name", .str name), ("kind", .str NameKind.type.text),
      ("definition", .ofOption (definition.or (exported.bind (·.definition?))))]
  | .comment _ => none
  | .ignore => none

def entryFieldsUnder? (spec : ExportSpec) (d : Declaration) : Option Fields :=
  match spec with
  | .all => entryFields? none d
  | .list names =>
    d.name?.bind fun name =>
      (names.find? (·.name == name)).bind fun exported => entryFields? (some exported) d

/-- Makes the exported entries of a module. -/
def resolveChecked (spec : ExportSpec) (declarations : List Declaration) :
    Except Stop (List ExportEntry) := do
  let _ ← (resolveGiven (.ok spec) (declarations.map .ok)).mapError .foreign
  (declarations.filterMap (entryFieldsUnder? spec)).mapM (make ExportEntry.ofJson)

/-- Reads a module and makes its parts: the module and its exported entries. -/
def readChecked (text : List Char) : Except Stop (Module × List ExportEntry) := do
  let m ← (readModule text).mapError .noModule
  let spec ← make ExportSpec.ofJson m.spec.toFields
  let declarations ← m.declarations.mapM fun d => make Declaration.ofJson d.toFields
  let exports ← resolveChecked spec declarations
  return (⟨spec, declarations, m.name⟩, exports)

end Elm

namespace SourceFile

/-- The outcome of the reading of a text, if there is one. -/
def outcomeOf : Except Elm.Stop (Elm.Module × List Elm.ExportEntry) → Except Elm.Stop Outcome
  | .ok (m, exports) => .ok { Outcome.ofModule m with exports }
  | .error (.noModule error) => .ok (.ofFailure .elm (.noModule error))
  | .error stop => .error stop

/-- Reads a file and makes the parts of its module. -/
def outcomeChecked (path : String) (content : Content) : Except Elm.Stop Outcome :=
  match Language.ofPath path with
  | .unknown => .ok (.ofFailure .unknown (.unsupported path))
  | .elm =>
    match content.decode path with
    | .error failure => .ok (.ofFailure .elm failure)
    | .ok text => outcomeOf (Elm.readChecked text)

end SourceFile
end SignatureSearch
