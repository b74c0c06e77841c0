/-
# `Elm.Module` — reading a whole module
-/
import SignatureSearch.Elm.Body
import SignatureSearch.Elm.Exports
import SignatureSearch.Elm.Header

namespace SignatureSearch.Elm

/-- Why a text is no module: a fault of the header and the offset where it was noticed. -/
structure ParseError where
  fault : HeaderFault
  position : Nat
deriving DecidableEq, Repr

def ParseError.message (e : ParseError) : String :=
  s!"{e.fault.text} (at offset {e.position})"

/-- A module: its exposing clause, the declarations of its body and its name. -/
structure Module where
  spec : ExportSpec
  declarations : List Declaration
  name : String
deriving DecidableEq, Repr

def Module.exports (m : Module) : List ExportEntry :=
  resolve m.spec m.declarations

def readModule (text : List Char) : Except ParseError Module :=
  match readHeader text with
  | .error stuck => .error ⟨stuck.fault, text.length - stuck.remaining.length⟩
  | .ok header =>
    .ok {
      spec := header.spec
      declarations := readBody header.body
      name := header.moduleName }

end SignatureSearch.Elm
