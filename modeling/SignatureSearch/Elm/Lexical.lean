/-
# `Elm.Lexical` — the characters of Elm sources

The classes of characters that the reader of a module cuts at, and the two
kinds of names.  A name whose first character is lowercase is a function; any
other name, the empty one included, is a type.
-/
import SignatureSearch.Text.Alphanumeric
import SignatureSearch.Text.Blank
import SignatureSearch.Text.Lowercase

namespace SignatureSearch.Elm

open Text

/-- What may stand between the parts of a header or an annotated name. -/
def isBlankOrComma (c : Char) : Bool :=
  isBlank c || c = ','

/-- Letters, digits and the underscore; the dots of a qualified name are not among them. -/
def isIdentifierChar (c : Char) : Bool :=
  isAlphanumeric c || c = '_'

def operatorChars : List Char :=
  ['+', '-', '/', '*', '^', '=', '>', '<', '&', '|', '.', ':', '!', '%', '?', '~', '$', '#', '@',
   '\\']

def isOperatorChar (c : Char) : Bool :=
  operatorChars.contains c

/-- What may stand in the group of constructors of an exposed type, such as `Msg(A, B)`. -/
def isGroupChar (c : Char) : Bool :=
  isIdentifierChar c || c = '.' || c = ',' || isBlank c

inductive NameKind where
  | function
  | type
deriving DecidableEq, Repr

/-- The kind of a name, by its first character. -/
def NameKind.ofName : List Char → NameKind
  | c :: _ => if isLowercase c then .function else .type
  | [] => .type

def NameKind.text : NameKind → String
  | .function => "function"
  | .type => "type"

def identifier (cs : List Char) : List Char :=
  cs.takeWhile isIdentifierChar

def afterIdentifier (cs : List Char) : List Char :=
  cs.dropWhile isIdentifierChar

end SignatureSearch.Elm
