/-
# `Elm.ExportSpec` — what the header of a module exposes

The exposing clause names everything, or lists names: functions (operators in
their parentheses) and types, a type perhaps with a group of constructors.
The list keeps the order and the repetitions of the header.
-/
namespace SignatureSearch.Elm

/-- A name in an exposing list, with what the header says about it. -/
inductive ExportedName where
  /-- A type, such as `Model` or `Msg(..)`; the group of constructors has no blanks. -/
  | type (name : String) (definition : Option String)
  /-- A function or operator; a header never gives a signature. -/
  | function (name : String) (signature : Option (List String))
deriving DecidableEq, Repr

namespace ExportedName

def name : ExportedName → String
  | .type name _ => name
  | .function name _ => name

/-- The group of constructors of a type. -/
def definition? : ExportedName → Option String
  | .type _ definition => definition
  | .function _ _ => none

def signature? : ExportedName → Option (List String)
  | .type _ _ => none
  | .function _ signature => signature

end ExportedName

inductive ExportSpec where
  /-- `exposing (..)` -/
  | all
  /-- An explicit list. -/
  | list (names : List ExportedName)
deriving DecidableEq, Repr

namespace ExportSpec

/-- The names of an explicit list; none if everything is exposed. -/
def names? : ExportSpec → Option (List String)
  | .all => none
  | .list names => some (names.map (·.name))

end ExportSpec
end SignatureSearch.Elm
