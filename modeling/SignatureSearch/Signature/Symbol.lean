/-
# `Signature.Symbol` — what signatures are made of

The symbols of a signature are the characters of a text.  What is stored in
place of a text may be a list, whose items are the symbols then, or an object,
whose names are.  A symbol that is no text cannot be written down, and a list or
an object is no symbol.
-/
import SignatureSearch.Json

namespace SignatureSearch.Signature

/-- A symbol of a signature: a character, or another value in its place. -/
inductive Symbol where
  | char (c : Char)
  | other (v : Json)
deriving DecidableEq, Repr

/-- A signature as a sequence of symbols. -/
abbrev Key := List Symbol

/-- Why a value is no signature. -/
inductive KeyError where
  /-- It has no items. -/
  | notIterable (kind : String)
  /-- One of its items is no symbol. -/
  | notSymbol (kind : String)
deriving DecidableEq, Repr

def KeyError.message : KeyError → String
  | .notIterable kind => s!"'{kind}' object is not iterable"
  | .notSymbol kind => s!"unhashable type: '{kind}'"

namespace Symbol

def ofText (s : String) : Symbol :=
  match s.toList with
  | [c] => .char c
  | _ => .other (.str s)

def ofJson : Json → Except KeyError Symbol
  | .str s => .ok (.ofText s)
  | .arr items => .error (.notSymbol (Json.arr items).kindName)
  | .obj fields => .error (.notSymbol (Json.obj fields).kindName)
  | v => .ok (.other v)

/-- Whether two symbols count as one: numbers of the same value do. -/
def same : Symbol → Symbol → Bool
  | .other v, .other w => v.sameElement w
  | a, b => decide (a = b)

/-- The characters of a symbol; one that is no text has none. -/
def chars : Symbol → List Char
  | .char c => [c]
  | .other (.str s) => s.toList
  | .other _ => []

/-- The kind of a symbol that is no text. -/
def foreignKind? : Symbol → Option String
  | .char _ | .other (.str _) => none
  | .other v => some v.kindName

end Symbol

namespace Key

def ofText (s : String) : Key :=
  s.toList.map .char

def ofJson : Json → Except KeyError Key
  | .str s => .ok (.ofText s)
  | .arr items => items.mapM Symbol.ofJson
  | .obj fields => .ok (fields.map fun (name, _) => Symbol.ofText name)
  | v => .error (.notIterable v.kindName)

def text (key : Key) : String :=
  String.ofList (key.flatMap Symbol.chars)

theorem text_ofText (s : String) : text (ofText s) = s := by
  have h : ∀ cs : List Char, (cs.map Symbol.char).flatMap Symbol.chars = cs := by
    intro cs
    induction cs with
    | nil => rfl
    | cons c cs ih => simp only [List.map_cons, List.flatMap_cons, ih, Symbol.chars,
        List.cons_append, List.nil_append]
  unfold text ofText
  rw [h, String.ofList_toList]

end Key
end SignatureSearch.Signature
