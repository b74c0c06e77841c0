/-
# `Signature.Terms` — type signatures as lists of terms

A type signature is cut at every arrow.  Parentheses do not bind: `(a -> b) ->
c` has the three terms `(a`, `b)` and `c`.  Line breaks and tabs inside a term
are removed, and the term is trimmed.  Joining the terms with spaced arrows
gives the normal form, under which a signature is stored and looked up.
-/
import SignatureSearch.Text.Blank

namespace SignatureSearch.Signature

def splitArrows : List Char → List (List Char)
  | [] => [[]]
  | '-' :: '>' :: rest => [] :: splitArrows rest
  | c :: rest =>
    match splitArrows rest with
    | [] => [[c]]
    | term :: terms => (c :: term) :: terms

/-- A line feed, a carriage return or a tab: what is removed from a term. -/
def isLayout (c : Char) : Bool :=
  c = '\n' || c = '\r' || c = '\t'

/-- One term: layout characters removed, then trimmed. -/
def cleanTerm (cs : List Char) : List Char :=
  Text.trim (cs.filter (!isLayout ·))

def terms (body : List Char) : List String :=
  (splitArrows body).map fun term => String.ofList (cleanTerm term)

/-- What stands between the terms of a normal form. -/
def arrow : String := " -> "

/-- The normal form of a signature. -/
def normalize (terms : List String) : String :=
  arrow.intercalate terms

end SignatureSearch.Signature
