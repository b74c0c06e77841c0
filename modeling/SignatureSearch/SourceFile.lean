/-
# `SourceFile` — reading one file of a package

The language of a file is known by its suffix.  Reading a file never fails: a
file in another language, bytes that are no UTF-8 and a text without a header
all give an outcome with one error and nothing else.
-/
import SignatureSearch.Elm.Module
import SignatureSearch.Path
import SignatureSearch.Text.Utf8

namespace SignatureSearch.SourceFile

/-- The languages that are told apart. -/
inductive Language where
  | elm
  | unknown
deriving DecidableEq, Repr

def Language.text : Language → String
  | .elm => "elm"
  | .unknown => "unknown"

/-- The language of a file, by the suffix of its path in lower case. -/
def Language.ofPath (path : String) : Language :=
  if (Path.ofText path).lowerSuffix = ".elm" then .elm else .unknown

inductive Content where
  | text (s : String)
  | bytes (b : List UInt8)
deriving DecidableEq, Repr

/-- Why a file could not be read. -/
inductive Failure where
  | unsupported (path : String)
  | notUtf8 (path : String) (failure : Text.Utf8.Failure)
  | noModule (error : Elm.ParseError)
deriving DecidableEq, Repr

def Failure.message : Failure → String
  | .unsupported path => s!"Unsupported language for file: {path}"
  | .notUtf8 path failure => s!"File is not valid UTF-8: {path} ({failure.message})"
  | .noModule error => s!"Error parsing elm file: {error.message}"

def Content.decode (path : String) : Content → Except Failure (List Char)
  | .text s => .ok s.toList
  | .bytes b => (Text.Utf8.decode b).mapError (.notUtf8 path)

def read (path : String) (content : Content) : Except Failure Elm.Module := do
  match Language.ofPath path with
  | .unknown => .error (.unsupported path)
  | .elm =>
    let text ← content.decode path
    (Elm.readModule text).mapError .noModule

/-- The outcome of reading a file, with every part present. -/
structure Outcome where
  language : Language
  moduleName : String
  spec : Elm.ExportSpec
  declarations : List Elm.Declaration
  exports : List Elm.ExportEntry
  errors : List String
deriving DecidableEq, Repr

def Outcome.ok (o : Outcome) : Bool :=
  o.errors.isEmpty

def Outcome.ofModule (m : Elm.Module) : Outcome where
  language := .elm
  moduleName := m.name
  spec := m.spec
  declarations := m.declarations
  exports := m.exports
  errors := []

def Outcome.ofFailure (language : Language) (failure : Failure) : Outcome where
  language
  moduleName := ""
  spec := .list []
  declarations := []
  exports := []
  errors := [failure.message]

def outcome (path : String) (content : Content) : Outcome :=
  match read path content with
  | .ok m => .ofModule m
  | .error failure => .ofFailure (Language.ofPath path) failure

/-- What a reader of a language is able to do. -/
inductive Capability where
  | parse
  | detect
deriving DecidableEq, Repr

def Capability.lacking : Capability → String
  | .parse => "Subclasses must implement parse method"
  | .detect => "Subclasses must implement detect_language method"

/-- A reader that is known by the name of its language only, and is able to do nothing. -/
structure BareReader where
  languageName : Option String
deriving DecidableEq, Repr

/-- The bare reader of a name; the empty name is none. -/
def BareReader.named (name : Option String) : BareReader where
  languageName := name.filter (· ≠ "")

/-- What a bare reader does when it is asked to use a capability. -/
def BareReader.use (_ : BareReader) (c : Capability) : Except Capability Unit :=
  .error c

end SignatureSearch.SourceFile
