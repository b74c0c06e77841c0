/-
# `Proofs.Signature.WalkOrder` — completion is a filter of one fixed order

A walk through an index finds its signatures in the order `Before`, which the
list of pairs fixes.  The order is read off a tree branch by branch.
`Grown t keys` says that `t` has the branches of some keys:

    first branch    for the symbol `a` that the first of the keys starts with
    below it        a tree that is grown from the keys after `a`
    beside it       a tree that is grown from the keys that start otherwise

An insertion adds its key at the end (`Grown.insert`), and a tree that is grown
from some keys lists them in their order (`Grown.mem_keys`,
`Grown.pairwise_keys`), from every place on (`Holds.find?`).  Two lists of the
same keys in this order are equal, so what is found below a prefix is the part
of all signatures that starts with it (`found_eq_filter`).

A walk that keeps a stack of the places it has still to go to, with the branches
of a place put there from the last to the first, visits the same places in the
same order (`visits_eq_unwind`).
-/
import Mathlib.Data.List.TakeWhile
import SignatureSearch.Proofs.Signature.KeyOrder
import SignatureSearch.Proofs.Signature.Multimap

namespace SignatureSearch.Signature

/-! ## Trees that are grown from keys -/

namespace Trie

variable {α ι : Type} [DecidableEq α]

/-- The keys below a place, as they are met on a walk. -/
def keys : Trie α ι → List (List α)
  | .nil => []
  | .branch a ids below beside =>
    (if ids = [] then [] else [[a]]) ++ below.keys.map (a :: ·) ++ beside.keys

/-- The tree has the branches of some keys, in the order in which the keys came. -/
def Grown : Trie α ι → List (List α) → Prop
  | .nil, keys => ∀ k ∈ keys, k = []
  | .branch a ids below beside, keys =>
    keys.findSome? List.head? = some a ∧ (ids = [] ↔ [] ∉ after [a] keys) ∧
      below.Grown (after [a] keys) ∧ beside.Grown (others a keys)

theorem Grown.concat_nil {t : Trie α ι} {keys : List (List α)} (h : t.Grown keys) :
    t.Grown (keys ++ [[]]) := by
  induction t generalizing keys with
  | nil =>
      intro k hk
      rcases List.mem_append.mp hk with hk | hk
      · exact h k hk
      · exact List.mem_singleton.mp hk
  | branch a ids below beside ihBelow ihBeside =>
      obtain ⟨hfirst, hids, hbelow, hbeside⟩ := h
      have hafter : after [a] (keys ++ [[]]) = after [a] keys := by
        simp [after, List.isPrefixOf?]
      refine ⟨?_, ?_, ?_, ?_⟩
      · rw [List.findSome?_append, hfirst]
        rfl
      · rw [hafter]
        exact hids
      · rw [hafter]
        exact hbelow
      · have hothers : others a (keys ++ [[]]) = others a keys ++ [[]] := by simp [others]
        rw [hothers]
        exact ihBeside hbeside

theorem grown_path (id : ι) (a : α) (rest : List α) {keys : List (List α)}
    (h : ∀ k ∈ keys, k = []) : (path id a rest).Grown (keys ++ [a :: rest]) := by
  induction rest generalizing a keys with
  | nil =>
      refine ⟨findSome?_head?_concat h, ?_, ?_, ?_⟩
      · rw [after_concat_self]
        simp
      · rw [after_concat_self, after_eq_nil h]
        exact fun k hk => List.mem_singleton.mp hk
      · rw [others_concat_self]
        exact fun k hk => h k (mem_others.mp hk).1
  | cons b rest ih =>
      refine ⟨findSome?_head?_concat h, ?_, ?_, ?_⟩
      · rw [after_concat_self, after_eq_nil h]
        simp
      · rw [after_concat_self, after_eq_nil h]
        exact ih b (fun k hk => absurd hk List.not_mem_nil)
      · rw [others_concat_self]
        exact fun k hk => h k (mem_others.mp hk).1

theorem Grown.insert (id : ι) {t : Trie α ι} {a : α} {rest : List α} {keys : List (List α)}
    (h : t.Grown keys) : (t.insert id a rest).Grown (keys ++ [a :: rest]) := by
  induction t generalizing a rest keys with
  | nil =>
      cases rest <;> exact grown_path id a _ h
  | branch b ids below beside ihBelow ihBeside =>
      obtain ⟨hfirst, hids, hbelow, hbeside⟩ := h
      have hfirst' : (keys ++ [a :: rest]).findSome? List.head? = some b := by
        rw [List.findSome?_append, hfirst]
        rfl
      by_cases hab : a = b
      · subst hab
        cases rest with
        | nil =>
            rw [Trie.insert, if_pos rfl]
            refine ⟨hfirst', ?_, ?_, ?_⟩
            · rw [after_concat_self]
              simp
            · rw [after_concat_self]
              exact hbelow.concat_nil
            · rw [others_concat_self]
              exact hbeside
        | cons c rest =>
            rw [Trie.insert, if_pos rfl]
            refine ⟨hfirst', ?_, ?_, ?_⟩
            · rw [after_concat_self]
              simpa using hids
            · rw [after_concat_self]
              exact ihBelow hbelow
            · rw [others_concat_self]
              exact hbeside
      · rw [insert_branch_of_ne id hab]
        refine ⟨hfirst', ?_, ?_, ?_⟩
        · rw [after_concat_of_ne hab]
          exact hids
        · rw [after_concat_of_ne hab]
          exact hbelow
        · rw [others_concat_of_ne hab]
          exact ihBeside hbeside

/-! ## The keys of a tree in their order -/

omit [DecidableEq α] in
theorem mem_keys_branch {a b : α} {ids : List ι} {below beside : Trie α ι} {k : List α} :
    b :: k ∈ (branch a ids below beside).keys ↔
      (b = a ∧ (k = [] ∧ ids ≠ [] ∨ k ∈ below.keys)) ∨ b :: k ∈ beside.keys := by
  by_cases hids : ids = []
  · simp [keys, hids, and_comm, eq_comm]
  · simp [keys, hids, and_or_left, and_comm, eq_comm, or_assoc]

theorem Grown.mem_keys {t : Trie α ι} {keys : List (List α)} (h : t.Grown keys) {k : List α} :
    k ∈ t.keys ↔ k ∈ keys ∧ k ≠ [] := by
  induction t generalizing keys k with
  | nil =>
      constructor
      · exact fun hk => absurd hk List.not_mem_nil
      · rintro ⟨hk, hne⟩
        exact absurd (h k hk) hne
  | branch a ids below beside ihBelow ihBeside =>
      obtain ⟨_, hids, hbelow, hbeside⟩ := h
      cases k with
      | nil =>
          have hbeside := mt (ihBeside hbeside (k := [])).mp
          simp [Trie.keys] at hbeside ⊢
          exact hbeside
      | cons b k =>
          have hpart : k = [] ∧ ids ≠ [] ∨ k ∈ below.keys ↔ a :: k ∈ keys := by
            have hmem : a :: k ∈ keys ↔ k ∈ after [a] keys := (mem_after (p := [a])).symm
            rw [ihBelow hbelow, hmem]
            by_cases hk : k = []
            · simp [hk, hids]
            · simp [hk]
          rw [mem_keys_branch, hpart, ihBeside hbeside, mem_others]
          by_cases hb : b = a <;> simp [hb]

theorem Grown.pairwise_keys {t : Trie α ι} {keys : List (List α)} (h : t.Grown keys) :
    t.keys.Pairwise (Before keys) := by
  induction t generalizing keys with
  | nil => exact .nil
  | branch a ids below beside ihBelow ihBeside =>
      obtain ⟨hfirst, hids, hbelow, hbeside⟩ := h
      have hhead : ∀ k ∈ beside.keys, k ≠ [] ∧ k.head? ≠ some a := by
        intro k hk
        obtain ⟨hk, hne⟩ := hbeside.mem_keys.mp hk
        exact ⟨hne, (mem_others.mp hk).2⟩
      have hcross : ∀ u, ∀ k ∈ beside.keys, Before keys (a :: u) k := by
        intro u k hk
        obtain ⟨hne, hk⟩ := hhead k hk
        cases k with
        | nil => exact absurd rfl hne
        | cons b k =>
            have hb : b ≠ a := fun h => hk (congrArg some h)
            exact Or.inr ⟨[], a, b, u, k, rfl, rfl, hb.symm, firstWith_lt_of_first hfirst hb⟩
      rw [Trie.keys, List.append_assoc, List.pairwise_append, List.pairwise_append,
        List.pairwise_map]
      refine ⟨?_, ⟨?_, ?_, ?_⟩, ?_⟩
      · split
        · exact .nil
        · exact List.pairwise_singleton _ _
      · exact (ihBelow hbelow).imp fun h => h.of_after
      · refine (ihBeside hbeside).imp_of_mem fun hk hk' h => ?_
        exact h.of_others (hhead _ hk).2 (hhead _ hk').2
      · intro k hk k' hk'
        obtain ⟨u, _, rfl⟩ := List.mem_map.mp hk
        exact hcross u k' hk'
      · intro k hk k' hk'
        obtain rfl : k = [a] := by
          split at hk
          · exact absurd hk List.not_mem_nil
          · exact List.mem_singleton.mp hk
        rcases List.mem_append.mp hk' with hk' | hk'
        · obtain ⟨u, hu, rfl⟩ := List.mem_map.mp hk'
          refine Or.inl ⟨List.cons_prefix_cons.mpr ⟨rfl, List.nil_prefix⟩, ?_⟩
          exact fun he => (hbelow.mem_keys.mp hu).2 (List.cons.inj he).2.symm
        · exact hcross [] k' hk'

/-! ## Places -/

/-- A place with some identifiers and branches is grown from keys, which may be empty. -/
structure Holds (ids : List ι) (t : Trie α ι) (keys : List (List α)) : Prop where
  ids_eq_nil_iff : ids = [] ↔ [] ∉ keys
  grown : t.Grown keys

def keysFrom (ids : List ι) (t : Trie α ι) : List (List α) :=
  (if ids = [] then [] else [[]]) ++ t.keys

theorem Holds.mem_keysFrom {ids : List ι} {t : Trie α ι} {keys : List (List α)}
    (h : Holds ids t keys) {k : List α} : k ∈ keysFrom ids t ↔ k ∈ keys := by
  rw [keysFrom, List.mem_append, h.grown.mem_keys]
  by_cases hk : k = []
  · by_cases hids : ids = []
    · simp [hk, hids, h.ids_eq_nil_iff.mp hids]
    · simp [hk, hids, not_not.mp (mt h.ids_eq_nil_iff.mpr hids)]
  · by_cases hids : ids = [] <;> simp [hk, hids]

theorem Holds.pairwise_keysFrom {ids : List ι} {t : Trie α ι} {keys : List (List α)}
    (h : Holds ids t keys) : (keysFrom ids t).Pairwise (Before keys) := by
  rw [keysFrom, List.pairwise_append]
  refine ⟨?_, h.grown.pairwise_keys, ?_⟩
  · split
    · exact .nil
    · exact List.pairwise_singleton _ _
  · intro k hk k' hk'
    obtain rfl : k = [] := by
      split at hk
      · exact absurd hk List.not_mem_nil
      · exact List.mem_singleton.mp hk
    exact Or.inl ⟨List.nil_prefix, (h.grown.mem_keys.mp hk').2.symm⟩

theorem Grown.child? {t : Trie α ι} {keys : List (List α)} (h : t.Grown keys) (a : α) :
    match t.child? a with
    | some (ids, below) => Holds ids below (after [a] keys)
    | none => after [a] keys = [] := by
  induction t generalizing keys with
  | nil => exact after_eq_nil h
  | branch b ids below beside _ ihBeside =>
      obtain ⟨_, hids, hbelow, hbeside⟩ := h
      by_cases hab : a = b
      · subst hab
        rw [Trie.child?, if_pos rfl]
        exact ⟨hids, hbelow⟩
      · rw [Trie.child?, if_neg hab, ← after_others hab]
        exact ihBeside hbeside

/-- The place that a key leads to is grown from what comes after the key. -/
theorem Holds.find? {ids : List ι} {t : Trie α ι} {keys : List (List α)} (h : Holds ids t keys)
    (p : List α) :
    match Trie.find? ids t p with
    | some (ids, below) => Holds ids below (after p keys)
    | none => after p keys = [] := by
  induction p generalizing ids t keys with
  | nil =>
      rw [after_nil]
      exact h
  | cons a p ih =>
      rw [Trie.find?, after_cons]
      have hchild := h.grown.child? a
      cases hc : t.child? a with
      | none =>
          rw [hc] at hchild
          show after p (after [a] keys) = []
          rw [hchild]
          rfl
      | some found =>
          rw [hc] at hchild
          exact ih hchild

/-! ## Walks -/

/-- A place that a walk has still to go to: its key, its identifiers, and what is below it. -/
abbrev Pending (α ι : Type) := List α × List ι × Trie α ι

/-- Puts the branches that leave a place on a stack: the last one first, so that the first one is
on top. -/
def push (key : List α) : Trie α ι → List (Pending α ι) → List (Pending α ι)
  | .nil, stack => stack
  | .branch a ids below beside, stack => (key ++ [a], ids, below) :: beside.push key stack

def size : Trie α ι → Nat
  | .nil => 0
  | .branch _ _ below beside => below.size + beside.size + 1

/-- How many places a stack leads to. -/
def weight : List (Pending α ι) → Nat
  | [] => 0
  | (_, _, t) :: stack => t.size + 1 + weight stack

omit [DecidableEq α] in
theorem weight_push (key : List α) (t : Trie α ι) (stack : List (Pending α ι)) :
    weight (t.push key stack) = t.size + weight stack := by
  induction t with
  | nil => simp [push, size]
  | branch a ids below beside _ ihBeside =>
      have hstep : weight ((branch a ids below beside).push key stack) =
          (below.size + 1) + weight (beside.push key stack) := rfl
      rw [hstep, ihBeside, size]
      omega

/-- A walk with a stack: takes the place on top, and puts its branches there instead. -/
def unwind : List (Pending α ι) → List (Visit α)
  | [] => []
  | (key, ids, t) :: stack => ⟨key, !ids.isEmpty, t.symbols⟩ :: unwind (t.push key stack)
termination_by stack => weight stack
decreasing_by
  rw [weight_push]
  exact Nat.lt_of_lt_of_eq (Nat.add_lt_add_right (Nat.lt_succ_self _) _) rfl

omit [DecidableEq α] in
/-- The branches on top of a stack are walked through, each with what is below it, before the
rest. -/
theorem unwind_push (t : Trie α ι) (key : List α) (stack : List (Pending α ι)) :
    unwind (t.push key stack) = t.visits key ++ unwind stack := by
  induction t generalizing key stack with
  | nil => rfl
  | branch a ids below beside ihBelow ihBeside =>
      rw [push, unwind, ihBelow, ihBeside, visits, List.cons_append, List.cons_append,
        List.append_assoc]

omit [DecidableEq α] in
/-- The places of a walk at which something is stored are the keys of the tree. -/
theorem stored_visits (t : Trie α ι) (key : List α) :
    ((t.visits key).filter (·.isStored)).map (·.key) = t.keys.map (key ++ ·) := by
  induction t generalizing key with
  | nil => rfl
  | branch a ids below beside ihBelow ihBeside =>
      have hbelow : below.keys.map ((key ++ [a]) ++ ·) = (below.keys.map (a :: ·)).map (key ++ ·) := by
        simp
      rw [visits, keys, List.map_append, List.map_append, ← hbelow, ← ihBelow, ← ihBeside]
      by_cases hids : ids = [] <;> simp [hids]

theorem Grown.symbols {t : Trie α ι} {keys : List (List α)} (h : t.Grown keys) {P : α → Prop}
    (hP : ∀ k ∈ keys, ∀ a ∈ k, P a) (key : List α) :
    (∀ a ∈ t.symbols, P a) ∧ ∀ v ∈ t.visits key, ∀ a ∈ v.next, P a := by
  induction t generalizing keys key with
  | nil =>
      constructor
      · exact fun a ha => absurd ha List.not_mem_nil
      · exact fun v hv => absurd hv List.not_mem_nil
  | branch b ids below beside ihBelow ihBeside =>
      obtain ⟨hfirst, _, hbelow, hbeside⟩ := h
      have hPafter : ∀ k ∈ after [b] keys, ∀ a ∈ k, P a := fun k hk a ha =>
        hP _ (mem_after.mp hk) a (List.mem_append_right _ ha)
      have hPothers : ∀ k ∈ others b keys, ∀ a ∈ k, P a := fun k hk =>
        hP k (mem_others.mp hk).1
      have hb : P b := by
        obtain ⟨k, hk, hhead⟩ := List.exists_of_findSome?_eq_some hfirst
        exact hP k hk b (List.mem_of_head? hhead)
      constructor
      · intro a ha
        rcases List.mem_cons.mp ha with rfl | ha
        · exact hb
        · exact (ihBeside hbeside hPothers key).1 a ha
      · intro v hv
        rw [visits, List.cons_append, List.mem_cons, List.mem_append] at hv
        rcases hv with rfl | hv | hv
        · exact (ihBelow hbelow hPafter key).1
        · exact (ihBelow hbelow hPafter (key ++ [b])).2 v hv
        · exact (ihBeside hbeside hPothers key).2 v hv

end Trie

theorem Symbol.char_injective : Function.Injective Symbol.char := by
  intro c d h
  exact Symbol.char.inj h

/-! ## Indexes -/

namespace Index

variable {ι : Type}

def keysOf (pairs : List (Pair ι)) : List Key :=
  pairs.map fun pair => .ofText pair.1

theorem holds_empty : Trie.Holds (empty : Index ι).ids empty.branches [] where
  ids_eq_nil_iff := by simp [empty]
  grown := fun k hk => absurd hk List.not_mem_nil

theorem holds_insertAt {index : Index ι} {keys : List Key}
    (h : Trie.Holds index.ids index.branches keys) (key : Key) (id : ι) :
    Trie.Holds (index.insertAt key id).ids (index.insertAt key id).branches (keys ++ [key]) := by
  cases key with
  | nil =>
      refine ⟨?_, h.grown.concat_nil⟩
      simp [insertAt]
  | cons a rest =>
      refine ⟨?_, h.grown.insert id⟩
      simpa [insertAt] using h.ids_eq_nil_iff

theorem holds_build (pairs : List (Pair ι)) :
    Trie.Holds (build pairs).ids (build pairs).branches (keysOf pairs) := by
  refine build_induction (P := fun index pairs =>
    Trie.Holds index.ids index.branches (keysOf pairs)) holds_empty ?_ pairs
  intro index pairs s id h
  rw [insert_ofText, keysOf, List.map_append]
  exact holds_insertAt h (.ofText s) id

/-- A walk through an index may be done with a stack that holds the place of the key. -/
theorem visits_eq_unwind (index : Index ι) (key : Key) :
    index.visits key =
      match index.find? key with
      | none => []
      | some (ids, below) => Trie.unwind [(key, ids, below)] := by
  rw [visits]
  cases index.find? key with
  | none => rfl
  | some found =>
      obtain ⟨ids, below⟩ := found
      show _ = Trie.unwind [(key, ids, below)]
      rw [Trie.unwind, Trie.unwind_push, Trie.unwind, List.append_nil]

/-- The keys of an index that start with a key, in the order of the walk. -/
def keysUnder (index : Index ι) (key : Key) : List Key :=
  match index.find? key with
  | none => []
  | some (ids, below) => (Trie.keysFrom ids below).map (key ++ ·)

theorem mem_keysUnder {index : Index ι} {keys : List Key}
    (h : Trie.Holds index.ids index.branches keys) {key k : Key} :
    k ∈ index.keysUnder key ↔ k ∈ keys ∧ key <+: k := by
  have hfind := h.find? key
  rw [keysUnder, find?]
  cases hf : index.branches.find? index.ids key with
  | none =>
      rw [hf] at hfind
      constructor
      · exact fun hk => absurd hk List.not_mem_nil
      · rintro ⟨hk, rest, rfl⟩
        have hrest : rest ∈ after key keys := mem_after.mpr hk
        rw [hfind] at hrest
        exact absurd hrest List.not_mem_nil
  | some found =>
      rw [hf] at hfind
      simp only [List.mem_map, hfind.mem_keysFrom, mem_after]
      constructor
      · rintro ⟨rest, hk, rfl⟩
        exact ⟨hk, List.prefix_append key rest⟩
      · rintro ⟨hk, rest, rfl⟩
        exact ⟨rest, hk, rfl⟩

theorem pairwise_keysUnder {index : Index ι} {keys : List Key}
    (h : Trie.Holds index.ids index.branches keys) (key : Key) :
    (index.keysUnder key).Pairwise (Before keys) := by
  have hfind := h.find? key
  rw [keysUnder, find?]
  cases hf : index.branches.find? index.ids key with
  | none => exact .nil
  | some found =>
      rw [hf] at hfind
      exact List.pairwise_map.mpr (hfind.pairwise_keysFrom.imp fun h => h.of_after)

theorem signaturesAt_visits (index : Index ι) (key : Key) :
    signaturesAt (index.visits key) = (index.keysUnder key).map Key.text := by
  rw [visits, keysUnder, signaturesAt]
  cases index.find? key with
  | none => rfl
  | some found =>
      obtain ⟨ids, below⟩ := found
      have hstored := congrArg (List.map Key.text) (Trie.stored_visits below key)
      rw [List.map_map] at hstored
      by_cases hids : ids = []
      · simpa [Trie.keysFrom, hids, Function.comp_def] using hstored
      · simpa [Trie.keysFrom, hids, Function.comp_def] using hstored

theorem walk_eq {index : Index ι} {keys : List Key}
    (h : Trie.Holds index.ids index.branches keys)
    (htext : ∀ k ∈ keys, ∀ a ∈ k, Symbol.foreignKind? a = none) (s : String) :
    index.walk s = ⟨(index.keysUnder (Key.ofText s)).map Key.text, none⟩ := by
  have hclear : ∀ v ∈ index.visits (Key.ofText s), (obstacle? v).isNone = true := by
    intro v hv
    rw [obstacle?, Option.isNone_iff_eq_none, List.findSome?_eq_none_iff]
    intro a ha
    have hfind := h.find? (Key.ofText s)
    rw [visits, find?] at hv
    cases hf : index.branches.find? index.ids (Key.ofText s) with
    | none =>
        rw [hf] at hv
        exact absurd hv List.not_mem_nil
    | some found =>
        rw [hf] at hfind hv
        obtain ⟨hsymbols, hvisits⟩ := hfind.grown.symbols
          (fun k hk a ha => htext _ (mem_after.mp hk) a (List.mem_append_right _ ha))
          (Key.ofText s)
        rcases List.mem_cons.mp hv with rfl | hv
        · exact hsymbols a (List.mem_reverse.mp ha)
        · exact hvisits v hv a (List.mem_reverse.mp ha)
  rw [walk, List.takeWhile_eq_self_iff.mpr hclear, List.drop_length, signaturesAt_visits]

/-! ## Texts -/

theorem ofText_prefix_iff {s s' : String} :
    Key.ofText s <+: Key.ofText s' ↔ s.toList <+: s'.toList :=
  map_prefix_map_iff Symbol.char_injective

theorem before_of_ofText {pairs : List (Pair ι)} {s s' : String}
    (h : Before (keysOf pairs) (Key.ofText s) (Key.ofText s')) :
    Before (pairs.map (·.1.toList)) s.toList s'.toList := by
  have hkeys : keysOf pairs = (pairs.map (·.1.toList)).map (List.map Symbol.char) := by
    rw [List.map_map]
    rfl
  rw [hkeys] at h
  exact h.of_map Symbol.char_injective

theorem mem_keysOf {pairs : List (Pair ι)} {k : Key} :
    k ∈ keysOf pairs ↔ ∃ s ∈ pairs.map (·.1), k = Key.ofText s := by
  simp [keysOf, eq_comm]

/-- The signatures of some pairs that start with a text, in the order of the walk. -/
def found (pairs : List (Pair ι)) (p : String) : List String :=
  ((build pairs).keysUnder (Key.ofText p)).map Key.text

theorem walk_build (pairs : List (Pair ι)) (p : String) :
    (build pairs).walk p = ⟨found pairs p, none⟩ := by
  refine walk_eq (holds_build pairs) ?_ p
  intro k hk a ha
  obtain ⟨s, _, rfl⟩ := mem_keysOf.mp hk
  obtain ⟨c, _, rfl⟩ := List.mem_map.mp ha
  rfl

theorem mem_found {pairs : List (Pair ι)} {p s : String} :
    s ∈ found pairs p ↔ s ∈ pairs.map (·.1) ∧ p.toList <+: s.toList := by
  rw [found, List.mem_map]
  simp only [mem_keysUnder (holds_build pairs), mem_keysOf]
  constructor
  · rintro ⟨k, ⟨⟨s', hs', rfl⟩, hp⟩, rfl⟩
    rw [Key.text_ofText]
    exact ⟨hs', ofText_prefix_iff.mp hp⟩
  · rintro ⟨hs, hp⟩
    exact ⟨Key.ofText s, ⟨⟨s, hs, rfl⟩, ofText_prefix_iff.mpr hp⟩, Key.text_ofText s⟩

theorem pairwise_found (pairs : List (Pair ι)) (p : String) :
    (found pairs p).Pairwise fun a b => Before (pairs.map (·.1.toList)) a.toList b.toList := by
  rw [found, List.pairwise_map]
  refine (pairwise_keysUnder (holds_build pairs) _).imp_of_mem fun {k k'} hk hk' h => ?_
  obtain ⟨s, _, rfl⟩ := mem_keysOf.mp (mem_keysUnder (holds_build pairs) |>.mp hk).1
  obtain ⟨s', _, rfl⟩ := mem_keysOf.mp (mem_keysUnder (holds_build pairs) |>.mp hk').1
  rw [Key.text_ofText, Key.text_ofText]
  exact before_of_ofText h

theorem nodup_found (pairs : List (Pair ι)) (p : String) : (found pairs p).Nodup :=
  (pairwise_found pairs p).imp fun h he => h.ne (congrArg _ he)

/-- What is found below a prefix is the part of all signatures that starts with it: two lists of
the same signatures in the same order are equal. -/
theorem found_eq_filter (pairs : List (Pair ι)) (p : String) :
    found pairs p = (found pairs "").filter fun s => decide (p.toList <+: s.toList) := by
  refine List.Perm.eq_of_pairwise (fun a b _ _ h h' => absurd h' h.asymm)
    (pairwise_found pairs p) ((pairwise_found pairs "").filter _) ?_
  refine (List.perm_ext_iff_of_nodup (nodup_found pairs p) ((nodup_found pairs "").filter _)).mpr ?_
  intro s
  simp [mem_found]

/-- In a list that is in the order of keys, a place further to the front is a place before. -/
theorem idxOf_lt_iff {keys : List (List Char)} {l : List String}
    (h : l.Pairwise fun a b => Before keys a.toList b.toList) {a b : String} (ha : a ∈ l)
    (hb : b ∈ l) (hne : a ≠ b) : l.idxOf a < l.idxOf b ↔ Before keys a.toList b.toList := by
  have hforward : ∀ {a b : String}, a ∈ l → b ∈ l → l.idxOf a < l.idxOf b →
      Before keys a.toList b.toList := by
    intro a b ha hb hlt
    have := List.pairwise_iff_getElem.mp h _ _ (List.idxOf_lt_length_iff.mpr ha)
      (List.idxOf_lt_length_iff.mpr hb) hlt
    rwa [List.getElem_idxOf, List.getElem_idxOf] at this
  constructor
  · exact hforward ha hb
  · intro hab
    rcases Nat.lt_trichotomy (l.idxOf a) (l.idxOf b) with hlt | heq | hgt
    · exact hlt
    · exact absurd ((List.idxOf_inj ha).mp heq) hne
    · exact absurd (hforward hb ha hgt) hab.asymm

/-! ## Questions -/

theorem signatures_build (pairs : List (Pair ι)) :
    (build pairs).signatures = .ok (found pairs "") := by
  rw [signatures, walk_build]

theorem suggest_build (pairs : List (Pair ι)) (p : String) (limit : Nat) :
    (build pairs).suggest p limit =
      .ok (if (found pairs p).take limit = [] then none else some ((found pairs p).take limit)) := by
  rw [suggest, walk_build, if_neg (Int.not_lt.mpr (Int.natCast_nonneg limit)), Int.toNat_natCast]
  cases (found pairs p).take limit <;> rfl

/-- **Completion is a filter of one fixed order.**  An index lists every signature once, in the
order that its pairs fix, and what it suggests for a prefix are the first signatures of that list
that start with it. -/
theorem build_suggestions (pairs : List (Pair ι)) :
    ∃ l : List String, (build pairs).signatures = .ok l ∧ l.Nodup ∧
      (∀ s, s ∈ l ↔ s ∈ pairs.map (·.1)) ∧
      (∀ a ∈ l, ∀ b ∈ l, a ≠ b →
        (l.idxOf a < l.idxOf b ↔ Before (pairs.map (·.1.toList)) a.toList b.toList)) ∧
      ∀ (p : String) (limit : Nat),
        ((build pairs).suggest p limit = .ok none ↔
          limit = 0 ∨ ∀ s ∈ pairs.map (·.1), ¬ p.toList <+: s.toList) ∧
        ((build pairs).suggest p limit ≠ .ok none →
          (build pairs).suggest p limit =
            .ok (some ((l.filter fun s => decide (p.toList <+: s.toList)).take limit))) := by
  refine ⟨found pairs "", signatures_build pairs, nodup_found pairs "", ?_, ?_, ?_⟩
  · intro s
    simp [mem_found]
  · intro a ha b hb hne
    exact idxOf_lt_iff (pairwise_found pairs "") ha hb hne
  · intro p limit
    have hnone : (found pairs p).take limit = [] ↔
        limit = 0 ∨ ∀ s ∈ pairs.map (·.1), ¬ p.toList <+: s.toList := by
      rw [List.take_eq_nil_iff, List.eq_nil_iff_forall_not_mem]
      simp only [mem_found, not_and]
    rw [suggest_build, ← found_eq_filter, ← hnone]
    by_cases htake : (found pairs p).take limit = []
    · simp [htake]
    · simp [htake]

/-- `ac` came before `ab`, and `a`, which starts both, came last. -/
theorem build_suggestions_sample :
    Before ["b".toList, "ac".toList, "ab".toList, "a".toList] "ac".toList "ab".toList ∧
      (build [("b", 1), ("ac", 2), ("ab", 3), ("a", 4)]).suggest "a" 2 =
        .ok (some ["a", "ac"]) := by
  obtain ⟨l, hl, _, _, horder, hsuggest⟩ :=
    build_suggestions [("b", 1), ("ac", 2), ("ab", 3), ("a", 4)]
  have hall : (build [("b", 1), ("ac", 2), ("ab", 3), ("a", 4)]).signatures =
      .ok ["b", "a", "ac", "ab"] := by decide +kernel
  obtain rfl : ["b", "a", "ac", "ab"] = l := Except.ok.inj (hall.symm.trans hl)
  constructor
  · exact (horder "ac" (by simp) "ab" (by simp) (by decide)).mp (by decide)
  · exact (hsuggest "a" 2).2 (by decide +kernel)

end Index
end SignatureSearch.Signature
