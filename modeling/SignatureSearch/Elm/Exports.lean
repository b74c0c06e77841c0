/-
# `Elm.Exports` — what a module exports

The exposing clause is held against the declarations of the body.  With
`exposing (..)` every function and type is exported; with a list, those whose
name is on it.  The order is that of the body.  What the body says about a name
counts; what the list says fills the gaps, and of several items of a name the
first one does.
-/
import SignatureSearch.Elm.Declaration
import SignatureSearch.Elm.ExportSpec
import SignatureSearch.Elm.Lexical
import SignatureSearch.Signature.Terms

namespace SignatureSearch.Elm

inductive ExportEntry where
  | function (name : String) (signature : Option (List String))
  | type (name : String) (definition : Option String)
deriving DecidableEq, Repr

namespace ExportEntry

def name : ExportEntry → String
  | .function name _ => name
  | .type name _ => name

def kind : ExportEntry → NameKind
  | .function _ _ => .function
  | .type _ _ => .type

def signature? : ExportEntry → Option (List String)
  | .function _ signature => signature
  | .type _ _ => none

def definition? : ExportEntry → Option String
  | .function _ _ => none
  | .type _ definition => definition

def normalSignature? (e : ExportEntry) : Option String :=
  e.signature?.map Signature.normalize

def functions (entries : List ExportEntry) : List ExportEntry :=
  entries.filter (·.kind = .function)

def types (entries : List ExportEntry) : List ExportEntry :=
  entries.filter (·.kind = .type)

end ExportEntry

/-- The entry of a declaration, with what the header says about the same name. -/
def toEntry? (exported : Option ExportedName) : Declaration → Option ExportEntry
  | .function name signature =>
    some (.function name (signature.or (exported.bind (·.signature?))))
  | .type name definition _ =>
    some (.type name (definition.or (exported.bind (·.definition?))))
  | .comment _ => none
  | .ignore => none

/-- The entry of a declaration under an exposing clause. -/
def entryUnder? (spec : ExportSpec) (d : Declaration) : Option ExportEntry :=
  match spec with
  | .all => toEntry? none d
  | .list names =>
    d.name?.bind fun name =>
      (names.find? (·.name == name)).bind fun exported => toEntry? (some exported) d

def resolve (spec : ExportSpec) (declarations : List Declaration) : List ExportEntry :=
  declarations.filterMap (entryUnder? spec)

/-- A value that is neither an exposing clause nor a declaration, by the word for its kind. -/
inductive VariantError where
  | spec (kind : String)
  | declaration (kind : String)
deriving DecidableEq, Repr

def VariantError.message : VariantError → String
  | .spec kind => s!"Unknown export spec variant: {kind}"
  | .declaration kind => s!"Unknown declaration variant: {kind}"

/-- Resolves values of which some may be foreign, given by the word for their kind.  A foreign
clause is reported before a foreign declaration, and of those the first. -/
def resolveGiven (spec : Except String ExportSpec)
    (declarations : List (Except String Declaration)) :
    Except VariantError (List ExportEntry) := do
  let spec ← spec.mapError .spec
  let declarations ← declarations.mapM (·.mapError .declaration)
  return resolve spec declarations

end SignatureSearch.Elm
