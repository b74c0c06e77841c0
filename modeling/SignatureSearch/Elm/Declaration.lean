/-
# `Elm.Declaration` — what stands in the body of a module
-/
namespace SignatureSearch.Elm

/-- A piece of the body of a module. -/
inductive Declaration where
  /-- A comment, with its delimiters. -/
  | comment (text : String)
  /-- A function with the terms of its type signature. -/
  | function (name : String) (signature : Option (List String))
  /-- A type or a type alias with the text after its name, blanks collapsed. -/
  | type (name : String) (definition : Option String) (isAlias : Bool)
  /-- A character that belongs to none of these. -/
  | ignore
deriving DecidableEq, Repr

namespace Declaration

def name? : Declaration → Option String
  | .function name _ => some name
  | .type name _ _ => some name
  | _ => none

/-- Whether the reader of a module keeps the piece. -/
def isKept : Declaration → Bool
  | .ignore => false
  | _ => true

end Declaration
end SignatureSearch.Elm
