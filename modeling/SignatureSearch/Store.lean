/-
# `Store` — documents in collections

A document is found by its collection and its identifier, and consists of
fields.  The documents of a collection are listed in the order of their
identifiers.  Several writes can be committed at once.
-/
import SignatureSearch.Json

namespace SignatureSearch

structure DocumentKey where
  collection : String
  id : String
deriving DecidableEq, Repr

def DocumentKey.text (key : DocumentKey) : String :=
  s!"{key.collection}/{key.id}"

structure Store where
  entries : List (DocumentKey × Fields)
  /-- No key occurs twice. -/
  distinct : (entries.map (·.1)).Nodup := by decide
deriving DecidableEq, Repr

namespace Store

def empty : Store := ⟨[], List.nodup_nil⟩

def get? (store : Store) (key : DocumentKey) : Option Fields :=
  store.entries.lookup key

def erase (store : Store) (key : DocumentKey) : Store where
  entries := store.entries.filter (·.1 ≠ key)
  distinct := store.distinct.sublist (List.filter_sublist.map _)

theorem erase_notMem (store : Store) (key : DocumentKey) :
    key ∉ (store.erase key).entries.map (·.1) := by
  intro h
  obtain ⟨entry, hentry, rfl⟩ := List.mem_map.mp h
  simp [erase] at hentry

/-- Stores a document in the place of an older one. -/
def put (store : Store) (key : DocumentKey) (fields : Fields) : Store where
  entries := (key, fields) :: (store.erase key).entries
  distinct := List.nodup_cons.mpr ⟨store.erase_notMem key, (store.erase key).distinct⟩

inductive Write where
  | set (key : DocumentKey) (fields : Fields)
  | delete (key : DocumentKey)
deriving DecidableEq, Repr

def write (store : Store) : Write → Store
  | .set key fields => store.put key fields
  | .delete key => store.erase key

/-- Makes several changes at once. -/
def commit (store : Store) (writes : List Write) : Store :=
  writes.foldl write store

/-- The documents of a collection, with their identifiers and in the order of these. -/
def documents (store : Store) (collection : String) : List (String × Fields) :=
  (store.entries.filterMap fun (key, fields) =>
    if key.collection = collection then some (key.id, fields) else none).mergeSort
      (fun a b => decide (a.1 ≤ b.1))

/-- The documents of a collection in which a field has a value. -/
def documentsWith (store : Store) (collection field : String) (value : Json) :
    List (String × Fields) :=
  (store.documents collection).filter fun (_, fields) => Json.field? fields field = some value

/-- The classes of values, in their order: what is below all finite numbers, these, what is above
them, and texts. -/
def orderClass : Json → Nat
  | .float (.infinite negative) => if negative then 0 else 2
  | .str _ => 3
  | _ => 1

/-- The order of values: numbers by their values come first, then texts.  What is not a number is
neither before nor after a number. -/
def valueLe (a b : Json) : Bool :=
  match a.ratio?, b.ratio?, a, b with
  | some (m, d), some (n, e), _, _ => decide (m * e ≤ n * d)
  | _, _, .str s, .str t => decide (s ≤ t)
  | _, _, .str _, _ => false
  | _, _, .float .nan, _ => true
  | _, _, _, .float .nan => true
  | _, _, a, b => decide (orderClass a ≤ orderClass b)

/-- The documents of a collection that have a field, in the order of its values. -/
def documentsBy (store : Store) (collection field : String) : List (String × Fields) :=
  (((store.documents collection).filterMap fun (id, fields) =>
    (Json.field? fields field).map fun v => (v, id, fields)).mergeSort
      (fun a b => valueLe a.1 b.1)).map (·.2)

end Store
end SignatureSearch
