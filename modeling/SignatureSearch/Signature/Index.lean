/-
# `Signature.Index` — functions by their signature

An index maps each signature to the identifiers of the functions that have it,
in the order in which they were added.  It is built once, from all pairs, and
never changes.  Signatures are compared as they are written; the empty one is a
signature too, and an identifier may occur more than once.
-/
import SignatureSearch.FunctionRecord
import SignatureSearch.Signature.Symbol
import SignatureSearch.Signature.Trie

namespace SignatureSearch.Signature

/-- A signature and the identifier of a function that has it. -/
abbrev Pair (ι : Type) := String × ι

structure Index (ι : Type) where
  /-- The identifiers of the empty signature. -/
  ids : List ι
  branches : Trie Symbol ι
  /-- How many identifiers there are. -/
  size : Nat
  /-- How many different signatures there are. -/
  signatureCount : Nat
deriving DecidableEq, Repr

namespace Index

variable {ι : Type}

/-- The index of no functions. -/
def empty : Index ι := ⟨[], .nil, 0, 0⟩

/-- The place that a key leads to: its identifiers, and the branches below it. -/
def find? (index : Index ι) (key : Key) : Option (List ι × Trie Symbol ι) :=
  index.branches.find? index.ids key

/-- The identifiers of a key; none at all if it is unknown. -/
def idsAt (index : Index ι) (key : Key) : List ι :=
  match index.find? key with
  | some (ids, _) => ids
  | none => []

def idsOf (index : Index ι) (s : String) : List ι :=
  index.idsAt (.ofText s)

def contains (index : Index ι) (s : String) : Bool :=
  !(index.idsOf s).isEmpty

/-- Adds a function under a key that is in the spelling of the index. -/
def insertAt (index : Index ι) (key : Key) (id : ι) : Index ι :=
  let counted : Index ι :=
    { index with
      size := index.size + 1
      signatureCount := index.signatureCount + if (index.idsAt key).isEmpty then 1 else 0 }
  match key with
  | [] => { counted with ids := index.ids ++ [id] }
  | a :: rest => { counted with branches := index.branches.insert id a rest }

def insert (index : Index ι) (key : Key) (id : ι) : Index ι :=
  index.insertAt (index.branches.spell Symbol.same key) id

def ofKeys (keys : List (Key × ι)) : Index ι :=
  keys.foldl (fun index (key, id) => index.insert key id) empty

def build (pairs : List (Pair ι)) : Index ι :=
  ofKeys (pairs.map fun (s, id) => (.ofText s, id))

def ofStored (stored : List (Json × ι)) : Except KeyError (Index ι) :=
  (stored.mapM fun (pair : Json × ι) => (Key.ofJson pair.1).map (·, pair.2)).map ofKeys

def ofRecords (records : List FunctionRecord) : Index Int :=
  build (records.map fun r => (r.signature, (r.id : Int)))

/-- Why a question cannot be answered. -/
inductive QueryError where
  | negativeLimit
  | negativeOffset
  /-- A signature has a symbol of this kind, which is no text. -/
  | notText (kind : String)
deriving DecidableEq, Repr

def QueryError.message : QueryError → String
  | .negativeLimit => "limit cannot be negative"
  | .negativeOffset => "offset cannot be negative"
  | .notText kind => s!"can only concatenate str (not \"{kind}\") to str"

/-- The identifiers of a signature from `offset` on, at most `limit` of them; none if there is no
identifier at `offset`. -/
def page? (index : Index ι) (s : String) (limit offset : Nat) : Option (List ι) :=
  if offset < (index.idsOf s).length then some (((index.idsOf s).drop offset).take limit) else none

/-- A page of the identifiers of a signature, where a missing offset is zero. -/
def search (index : Index ι) (s : String) (limit : Int) (offset : Option Int) :
    Except QueryError (Option (List ι)) :=
  let start := offset.getD 0
  if limit < 0 then .error .negativeLimit
  else if start < 0 then .error .negativeOffset
  else .ok (index.page? s limit.toNat start.toNat)

/-! ## Walks -/

/-- The places of the tree from that of a key on, in the order of the walk. -/
def visits (index : Index ι) (key : Key) : List (Trie.Visit Symbol) :=
  match index.find? key with
  | none => []
  | some (ids, below) => ⟨key, !ids.isEmpty, below.symbols⟩ :: below.visits key

/-- The kind of the last symbol that is no text, among those that lead further. -/
def obstacle? (v : Trie.Visit Symbol) : Option String :=
  v.next.reverse.findSome? Symbol.foreignKind?

def signaturesAt (visits : List (Trie.Visit Symbol)) : List String :=
  (visits.filter (·.isStored)).map fun v => Key.text v.key

/-- What a walk finds: signatures, and the kind of the symbol at which it cannot go on. -/
structure Walk where
  found : List String
  stop : Option String
deriving DecidableEq, Repr

/-- Walks over all signatures that start with a text.  At a place from which a symbol that is no
text leads further the walk ends. -/
def walk (index : Index ι) (s : String) : Walk :=
  let visits := index.visits (.ofText s)
  let clear := visits.takeWhile fun v => (obstacle? v).isNone
  match visits.drop clear.length with
  | [] => ⟨signaturesAt clear, none⟩
  | v :: _ => ⟨signaturesAt (clear ++ [v]), obstacle? v⟩

def signatures (index : Index ι) : Except QueryError (List String) :=
  let w := index.walk ""
  match w.stop with
  | some kind => .error (.notText kind)
  | none => .ok w.found

/-- The first signatures that start with a text; none if there is none.  The walk goes on to the
first signature beyond the limit. -/
def suggest (index : Index ι) (s : String) (limit : Int) :
    Except QueryError (Option (List String)) :=
  let w := index.walk s
  if limit < 0 then .error .negativeLimit
  else
    match w.stop.filter (fun _ => w.found.length ≤ limit.toNat), w.found.take limit.toNat with
    | some kind, _ => .error (.notText kind)
    | none, [] => .ok none
    | none, found => .ok (some found)

end Index
end SignatureSearch.Signature
