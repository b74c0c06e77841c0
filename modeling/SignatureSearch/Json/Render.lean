/-
# `Json.Render` — writing JSON, and showing values in messages

`render` is the data format itself.  `literal` is the notation in which
messages show a value: quoted texts, `None`, `True`, `False`, bracketed lists
and braced mappings.  `display` is the same, but for a text, which is shown as
it is.
-/
import SignatureSearch.Binary64.Shortest
import SignatureSearch.Json
import SignatureSearch.Text.Quoted

namespace SignatureSearch.Json

/-- One character inside a text of the format. -/
def escapeChar (c : Char) : List Char :=
  match c with
  | '"' => ['\\', '"']
  | '\\' => ['\\', '\\']
  | '\n' => ['\\', 'n']
  | '\r' => ['\\', 'r']
  | '\t' => ['\\', 't']
  | c =>
    if c.toNat = 8 then ['\\', 'b']
    else if c.toNat = 12 then ['\\', 'f']
    else if c.toNat < 32 then ['\\', 'u'] ++ Text.hexPadded 4 c.toNat
    else [c]

def renderText (s : String) : String :=
  "\"" ++ String.ofList (s.toList.flatMap escapeChar) ++ "\""

/-- A floating point number of the format. -/
def renderFloat : Binary64 → String
  | .nan => "NaN"
  | .infinite negative => if negative then "-Infinity" else "Infinity"
  | x => x.render

mutual
/-- A value in the format, without blanks. -/
def render : Json → String
  | .null => "null"
  | .bool b => if b then "true" else "false"
  | .int n => toString n
  | .float x => renderFloat x
  | .str s => renderText s
  | .arr items => "[" ++ ",".intercalate (renderItems items) ++ "]"
  | .obj fields => "\x7b" ++ ",".intercalate (renderFields fields) ++ "\x7d"

def renderItems : List Json → List String
  | [] => []
  | v :: rest => render v :: renderItems rest

def renderFields : List (String × Json) → List String
  | [] => []
  | (k, v) :: rest => (renderText k ++ ":" ++ render v) :: renderFields rest
end

mutual
/-- A value as messages show it inside another one. -/
def literal : Json → String
  | .null => "None"
  | .bool b => if b then "True" else "False"
  | .int n => toString n
  | .float x => x.render
  | .str s => Text.quoted s
  | .arr items => "[" ++ ", ".intercalate (literalItems items) ++ "]"
  | .obj fields => "\x7b" ++ ", ".intercalate (literalFields fields) ++ "\x7d"

/-- The items of a list as messages show them. -/
def literalItems : List Json → List String
  | [] => []
  | v :: rest => literal v :: literalItems rest

/-- The fields of a mapping as messages show them. -/
def literalFields : List (String × Json) → List String
  | [] => []
  | (k, v) :: rest => (Text.quoted k ++ ": " ++ literal v) :: literalFields rest
end

/-- A value as messages show it: a text stands for itself. -/
def display : Json → String
  | .str s => s
  | v => literal v

end SignatureSearch.Json
