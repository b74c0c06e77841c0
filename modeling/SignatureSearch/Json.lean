/-
# `Json` — data values

Integers of any size and floating point numbers are kept apart, and the fields
of an object keep their order.  Equality of values is decidable.
-/
import SignatureSearch.Binary64

namespace SignatureSearch

/-- A JSON value. -/
inductive Json where
  | null
  | bool (b : Bool)
  | int (n : Int)
  | float (x : Binary64)
  | str (s : String)
  | arr (items : List Json)
  | obj (fields : List (String × Json))
deriving Repr, Inhabited

/-- The fields of an object, in order. -/
abbrev Fields := List (String × Json)

namespace Json

mutual
/-- Whether two values are the same. -/
def same : Json → Json → Bool
  | .null, .null => true
  | .bool a, .bool b => a == b
  | .int a, .int b => a == b
  | .float a, .float b => decide (a = b)
  | .str a, .str b => a == b
  | .arr a, .arr b => sameItems a b
  | .obj a, .obj b => sameFields a b
  | _, _ => false

def sameItems : List Json → List Json → Bool
  | [], [] => true
  | x :: xs, y :: ys => same x y && sameItems xs ys
  | _, _ => false

/-- Whether two lists of fields are the same, order included. -/
def sameFields : List (String × Json) → List (String × Json) → Bool
  | [], [] => true
  | (k, x) :: xs, (l, y) :: ys => k == l && same x y && sameFields xs ys
  | _, _ => false
end

mutual
theorem same_iff : (a b : Json) → (same a b = true ↔ a = b)
  | .null, b => by cases b <;> simp [same]
  | .bool _, b => by cases b <;> simp [same]
  | .int _, b => by cases b <;> simp [same]
  | .float _, b => by cases b <;> simp [same]
  | .str _, b => by cases b <;> simp [same]
  | .arr xs, b => by
    cases b with
    | arr ys => simpa [same] using sameItems_iff xs ys
    | _ => simp [same]
  | .obj xs, b => by
    cases b with
    | obj ys => simpa [same] using sameFields_iff xs ys
    | _ => simp [same]

theorem sameItems_iff : (xs ys : List Json) → (sameItems xs ys = true ↔ xs = ys)
  | [], ys => by cases ys <;> simp [sameItems]
  | x :: xs, ys => by
    cases ys with
    | nil => simp [sameItems]
    | cons y ys => simp [sameItems, same_iff x y, sameItems_iff xs ys]

theorem sameFields_iff : (xs ys : List (String × Json)) → (sameFields xs ys = true ↔ xs = ys)
  | [], ys => by cases ys <;> simp [sameFields]
  | (k, x) :: xs, ys => by
    cases ys with
    | nil => simp [sameFields]
    | cons y ys =>
      obtain ⟨l, y⟩ := y
      simp [sameFields, same_iff x y, sameFields_iff xs ys]
end

instance : DecidableEq Json := fun a b =>
  decidable_of_iff (same a b = true) (same_iff a b)

/-- The value of a field; the last field of a name counts. -/
def field? (fields : Fields) (name : String) : Option Json :=
  (fields.reverse.find? (·.1 == name)).map (·.2)

/-- Sets a field, in its old place if there was one. -/
def setField (fields : Fields) (name : String) (value : Json) : Fields :=
  if fields.any (·.1 == name) then
    fields.map fun (k, v) => if k == name then (k, value) else (k, v)
  else fields ++ [(name, value)]

def fields? : Json → Option Fields
  | .obj fields => some fields
  | _ => none

/-- An optional text: none is null. -/
def ofOption (s : Option String) : Json :=
  match s with
  | some s => .str s
  | none => .null

def ofStrings (items : List String) : Json :=
  .arr (items.map .str)

/-- A number, or a truth value taken as one, as a fraction; none if it is infinite or no number. -/
def ratio? : Json → Option (Int × Nat)
  | .bool b => some (if b then 1 else 0, 1)
  | .int n => some (n, 1)
  | .float x => x.toRatio?
  | _ => none

/-- Whether two values count as one in a set: numbers of the same value do, and equal values. -/
def sameElement (a b : Json) : Bool :=
  match a.ratio?, b.ratio? with
  | some (m, d), some (n, e) => m * e == n * d
  | none, none => decide (a = b)
  | _, _ => false

/-- The word for the kind of a value in messages about values of the wrong kind. -/
def kindName : Json → String
  | .null => "NoneType"
  | .bool _ => "bool"
  | .int _ => "int"
  | .float _ => "float"
  | .str _ => "str"
  | .arr _ => "list"
  | .obj _ => "dict"

end Json
end SignatureSearch
