/-
# `Proofs.Signature.Multimap` — an index agrees with the plain list of its pairs

An index is a tree with two counters beside it.  What it stands for is a
multimap: for each signature the identifiers that were given with it, in order.
`idsFor` reads them off the list of pairs, and `Agrees` says that an index
answers by that list:

    idsOf s           the identifiers of the pairs with signature `s`
    size              how many pairs there are
    signatureCount    how many different signatures they have

One insertion keeps the agreement (`Agrees.insert`), so that every index that
is built has it (`agrees_build`).  The tree is looked at in one lemma only,
`stored_insert`: an insertion adds its identifier at its own key, and at no
other, whether the two keys share a start, extend one another or part.
-/
import Mathlib.Data.Finset.Card
import SignatureSearch.Signature.Index

namespace SignatureSearch.Signature

/-! ## Where a tree stores identifiers -/

namespace Trie

variable {α ι : Type} [DecidableEq α]

/-- The identifiers stored at the end of a key, from a place with the given identifiers. -/
def stored (ids : List ι) (t : Trie α ι) (key : List α) : List ι :=
  ((find? ids t key).map (·.1)).getD []

/-- What a symbol leads to; nothing, if there is no branch for it. -/
def place (t : Trie α ι) (a : α) : List ι × Trie α ι :=
  (t.child? a).getD ([], .nil)

theorem stored_cons (ids : List ι) (t : Trie α ι) (a : α) (key : List α) :
    stored ids t (a :: key) = stored (t.place a).1 (t.place a).2 key := by
  rw [stored, find?, place]
  cases t.child? a with
  | some found => rfl
  | none =>
      cases key with
      | nil => rfl
      | cons b key => rfl

theorem stored_cons_ids (ids ids' : List ι) (t : Trie α ι) (a : α) (key : List α) :
    stored ids t (a :: key) = stored ids' t (a :: key) := by
  rw [stored_cons, stored_cons]

theorem place_branch_self (a : α) (ids : List ι) (below beside : Trie α ι) :
    (branch a ids below beside).place a = (ids, below) := by
  simp [place, child?]

theorem place_branch_of_ne {a b : α} (h : a ≠ b) (ids : List ι) (below beside : Trie α ι) :
    (branch b ids below beside).place a = beside.place a := by
  simp [place, child?, h]

theorem insert_branch_of_ne (id : ι) {a b : α} (h : a ≠ b) (rest : List α) (ids : List ι)
    (below beside : Trie α ι) :
    (branch b ids below beside).insert id a rest =
      branch b ids below (beside.insert id a rest) := by
  cases rest <;> simp [insert, h]

theorem place_insert_of_ne (id : ι) {a c : α} (h : c ≠ a) (rest : List α) (t : Trie α ι) :
    (t.insert id a rest).place c = t.place c := by
  induction t with
  | nil => cases rest <;> exact place_branch_of_ne h _ _ _
  | branch b ids below beside _ ih =>
      by_cases hab : a = b
      · subst hab
        rw [place_branch_of_ne h]
        cases rest <;> simp [insert, place_branch_of_ne h]
      · rw [insert_branch_of_ne id hab]
        by_cases hcb : c = b
        · rw [hcb, place_branch_self, place_branch_self]
        · rw [place_branch_of_ne hcb, place_branch_of_ne hcb, ih]

theorem place_insert_self (id : ι) (a : α) (rest : List α) (t : Trie α ι) :
    (t.insert id a rest).place a =
      match rest with
      | [] => ((t.place a).1 ++ [id], (t.place a).2)
      | b :: rest => ((t.place a).1, (t.place a).2.insert id b rest) := by
  induction t with
  | nil => cases rest <;> exact place_branch_self a _ _ _
  | branch b ids below beside _ ih =>
      by_cases hab : a = b
      · subst hab
        rw [place_branch_self]
        cases rest <;> simp [insert, place_branch_self]
      · rw [insert_branch_of_ne id hab, place_branch_of_ne hab, place_branch_of_ne hab, ih]

theorem stored_insert (id : ι) (rest : List α) :
    ∀ (a : α) (ids : List ι) (t : Trie α ι) (c : α) (key : List α),
      stored ids (t.insert id a rest) (c :: key) =
        stored ids t (c :: key) ++ if c :: key = a :: rest then [id] else [] := by
  induction rest with
  | nil =>
      intro a ids t c key
      rw [stored_cons, stored_cons ids t]
      by_cases hc : c = a
      · rw [hc, place_insert_self]
        cases key with
        | nil => simp [stored, find?]
        | cons d key => simp [stored_cons_ids ((t.place a).1 ++ [id]) (t.place a).1]
      · simp [place_insert_of_ne id hc, hc]
  | cons b rest ih =>
      intro a ids t c key
      rw [stored_cons, stored_cons ids t]
      by_cases hc : c = a
      · rw [hc, place_insert_self]
        cases key with
        | nil => simp [stored, find?]
        | cons d key => simp [ih]
      · simp [place_insert_of_ne id hc, hc]

end Trie

/-! ## Texts as keys -/

theorem Symbol.same_char (c : Char) (b : Symbol) :
    Symbol.same (.char c) b = decide (Symbol.char c = b) := by
  cases b <;> rfl

theorem spell_chars {ι : Type} (cs : List Char) : ∀ t : Trie Symbol ι,
    t.spell Symbol.same (cs.map .char) = cs.map .char := by
  induction cs with
  | nil => intro t; rfl
  | cons c cs ih =>
      intro t
      rw [List.map_cons, Trie.spell]
      cases hf : t.symbols.find? (Symbol.same (.char c)) with
      | none => rfl
      | some b =>
          have hsame := List.find?_some hf
          rw [Symbol.same_char, decide_eq_true_eq] at hsame
          subst hsame
          simp only [ih]

theorem Key.ofText_injective {s s' : String} (h : Key.ofText s = Key.ofText s') : s = s' := by
  rw [← Key.text_ofText s, h, Key.text_ofText]

/-! ## One insertion -/

namespace Index

variable {ι : Type}

theorem idsAt_eq_stored (index : Index ι) (key : Key) :
    index.idsAt key = index.branches.stored index.ids key := by
  rw [idsAt, find?, Trie.stored]
  cases index.branches.find? index.ids key <;> rfl

theorem idsAt_insertAt (index : Index ι) (key key' : Key) (id : ι) :
    (index.insertAt key id).idsAt key' = index.idsAt key' ++ if key' = key then [id] else [] := by
  rw [idsAt_eq_stored, idsAt_eq_stored]
  cases key with
  | nil =>
      cases key' with
      | nil => rfl
      | cons b rest' =>
          rw [if_neg (List.cons_ne_nil b rest'), List.append_nil]
          exact Trie.stored_cons_ids (index.ids ++ [id]) index.ids index.branches b rest'
  | cons a rest =>
      cases key' with
      | nil => exact (List.append_nil _).symm
      | cons b rest' => exact Trie.stored_insert id rest a index.ids index.branches b rest'

theorem insert_ofText (index : Index ι) (s : String) (id : ι) :
    index.insert (.ofText s) id = index.insertAt (.ofText s) id := by
  rw [insert, Key.ofText, spell_chars]

/-- An insertion adds its identifier under its own signature, and under no other. -/
theorem idsOf_insert (index : Index ι) (s s' : String) (id : ι) :
    (index.insert (.ofText s) id).idsOf s' = index.idsOf s' ++ if s' = s then [id] else [] := by
  have hkey : Key.ofText s' = Key.ofText s ↔ s' = s := ⟨Key.ofText_injective, congrArg _⟩
  rw [insert_ofText, idsOf, idsAt_insertAt, idsOf]
  simp only [hkey]

theorem size_insert (index : Index ι) (s : String) (id : ι) :
    (index.insert (.ofText s) id).size = index.size + 1 := by
  rw [insert_ofText]
  cases Key.ofText s <;> rfl

theorem signatureCount_insert (index : Index ι) (s : String) (id : ι) :
    (index.insert (.ofText s) id).signatureCount =
      index.signatureCount + if (index.idsOf s).isEmpty then 1 else 0 := by
  rw [insert_ofText, idsOf]
  cases Key.ofText s <;> rfl

/-! ## Agreement with the list of pairs -/

def idsFor (pairs : List (Pair ι)) (s : String) : List ι :=
  pairs.filterMap fun (s', id) => if s' = s then some id else none

/-- An index holds what a list of pairs says. -/
structure Agrees (index : Index ι) (pairs : List (Pair ι)) : Prop where
  idsOf_eq : ∀ s, index.idsOf s = idsFor pairs s
  size_eq : index.size = pairs.length
  signatureCount_eq : index.signatureCount = (pairs.map (·.1)).toFinset.card

theorem idsFor_concat (pairs : List (Pair ι)) (s s' : String) (id : ι) :
    idsFor (pairs ++ [(s, id)]) s' = idsFor pairs s' ++ if s' = s then [id] else [] := by
  rw [idsFor, List.filterMap_append, ← idsFor]
  by_cases h : s' = s
  · simp [h]
  · simp [h, Ne.symm h]

theorem idsFor_eq_nil_iff {pairs : List (Pair ι)} {s : String} :
    idsFor pairs s = [] ↔ s ∉ pairs.map (·.1) := by
  simp only [idsFor, List.filterMap_eq_nil_iff, List.mem_map, not_exists, not_and]
  constructor
  · intro h pair hp hs
    exact absurd (h pair hp) (by simp [hs])
  · intro h pair hp
    exact if_neg (h pair hp)

theorem toFinset_concat (pairs : List (Pair ι)) (s : String) (id : ι) :
    ((pairs ++ [(s, id)]).map (·.1)).toFinset = Insert.insert s (pairs.map (·.1)).toFinset := by
  ext s'
  simp

theorem agrees_empty : Agrees (empty : Index ι) [] := by
  refine ⟨fun s => ?_, rfl, rfl⟩
  rw [idsOf, idsAt_eq_stored]
  cases Key.ofText s <;> rfl

theorem Agrees.insert {index : Index ι} {pairs : List (Pair ι)} (h : Agrees index pairs)
    (s : String) (id : ι) : Agrees (index.insert (.ofText s) id) (pairs ++ [(s, id)]) where
  idsOf_eq s' := by rw [idsOf_insert, h.idsOf_eq, idsFor_concat]
  size_eq := by rw [size_insert, h.size_eq, List.length_append]; rfl
  signatureCount_eq := by
    rw [signatureCount_insert, h.signatureCount_eq, h.idsOf_eq, toFinset_concat]
    -- The signature is new exactly if it has no identifier yet.
    by_cases hs : s ∈ pairs.map (·.1)
    · have hne : (idsFor pairs s).isEmpty = false := by
        simpa using mt idsFor_eq_nil_iff.mp (not_not.mpr hs)
      rw [Finset.card_insert_of_mem (List.mem_toFinset.mpr hs), hne]
      rfl
    · have hnil : (idsFor pairs s).isEmpty = true :=
        List.isEmpty_iff.mpr (idsFor_eq_nil_iff.mpr hs)
      rw [Finset.card_insert_of_notMem (mt List.mem_toFinset.mp hs), hnil]
      rfl

/-- What holds of no pairs, and is kept when a pair is added, holds of every index that is built. -/
theorem build_induction {P : Index ι → List (Pair ι) → Prop} (hempty : P empty [])
    (hinsert : ∀ index pairs s id, P index pairs →
      P (index.insert (.ofText s) id) (pairs ++ [(s, id)]))
    (pairs : List (Pair ι)) : P (build pairs) pairs := by
  have hrun : ∀ (more done : List (Pair ι)) (index : Index ι), P index done →
      P (more.foldl (fun index (s, id) => index.insert (.ofText s) id) index) (done ++ more) := by
    intro more
    induction more with
    | nil =>
        intro done index h
        rwa [List.append_nil]
    | cons pair more ih =>
        intro done index h
        have := ih (done ++ [pair]) _ (hinsert index done pair.1 pair.2 h)
        rwa [List.append_assoc] at this
  rw [build, ofKeys, List.foldl_map]
  exact hrun pairs [] empty hempty

theorem agrees_build (pairs : List (Pair ι)) : Agrees (build pairs) pairs :=
  build_induction agrees_empty (fun _ _ s id h => h.insert s id) pairs

/-! ## Answers -/

/-- Of an index, only the identifiers of a signature matter for an answer about it. -/
theorem search_eq_of_idsOf_eq {index index' : Index ι} {s : String}
    (h : index.idsOf s = index'.idsOf s) (limit : Int) (offset : Option Int) :
    index.search s limit offset = index'.search s limit offset := by
  rw [search, search, page?, page?, h]

/-- A page of an index that agrees with some pairs is a page of their identifiers. -/
theorem Agrees.search_eq {index : Index ι} {pairs : List (Pair ι)} (h : Agrees index pairs)
    (s : String) (limit : Nat) (offset : Option Nat) :
    index.search s limit (offset.map (↑)) =
      .ok (if (idsFor pairs s).length ≤ offset.getD 0 then none
        else some (((idsFor pairs s).drop (offset.getD 0)).take limit)) := by
  have hstart : (offset.map ((↑) : Nat → Int)).getD 0 = ((offset.getD 0 : Nat) : Int) := by
    cases offset <;> rfl
  rw [search, hstart, if_neg (Int.not_lt.mpr (Int.natCast_nonneg limit)),
    if_neg (Int.not_lt.mpr (Int.natCast_nonneg _)), Int.toNat_natCast, Int.toNat_natCast, page?,
    h.idsOf_eq]
  by_cases hlen : (idsFor pairs s).length ≤ offset.getD 0
  · rw [if_pos hlen, if_neg (Nat.not_lt.mpr hlen)]
  · rw [if_neg hlen, if_pos (Nat.not_le.mp hlen)]

theorem Agrees.contains_iff {index : Index ι} {pairs : List (Pair ι)} (h : Agrees index pairs)
    (s : String) : index.contains s = true ↔ idsFor pairs s ≠ [] := by
  rw [contains, h.idsOf_eq]
  simp

/-- **An index agrees with the plain list of its pairs**: in what it finds, page by page, in what
it contains, and in its two counts.  So only the identifiers under each signature matter, not how
the signatures are mixed. -/
theorem build_answers (pairs : List (Pair ι)) :
    (∀ (s : String) (limit : Nat) (offset : Option Nat),
      (build pairs).search s limit (offset.map (↑)) =
        .ok (if (idsFor pairs s).length ≤ offset.getD 0 then none
          else some (((idsFor pairs s).drop (offset.getD 0)).take limit))) ∧
    (∀ s, (build pairs).contains s = true ↔ idsFor pairs s ≠ []) ∧
    (build pairs).size = pairs.length ∧
    (build pairs).signatureCount = (pairs.map (·.1)).toFinset.card ∧
    ∀ others : List (Pair ι), (∀ s, idsFor others s = idsFor pairs s) →
      ∀ s limit offset, (build others).search s limit offset = (build pairs).search s limit offset := by
  have h := agrees_build pairs
  refine ⟨h.search_eq, h.contains_iff, h.size_eq, h.signatureCount_eq, ?_⟩
  intro others hsame s limit offset
  have hids : (build others).idsOf s = (build pairs).idsOf s := by
    rw [(agrees_build others).idsOf_eq, h.idsOf_eq, hsame]
  exact search_eq_of_idsOf_eq hids limit offset

/-- One signature is the start of the other, and the pairs are mixed in two ways. -/
theorem build_answers_sample :
    (build [("a", 1), ("ab", 2), ("a", 1), ("", 4)]).search "a" 5 (some 1) = .ok (some [1]) ∧
      (build [("ab", 2), ("", 4), ("a", 1), ("a", 1)]).search "a" 5 (some 1) = .ok (some [1]) := by
  have hmixed : ∀ s, idsFor [("ab", 2), ("", 4), ("a", 1), ("a", 1)] s =
      idsFor [("a", 1), ("ab", 2), ("a", 1), ("", 4)] s := by
    intro s
    by_cases h₁ : "a" = s
    · subst h₁
      decide +kernel
    · by_cases h₂ : "ab" = s
      · subst h₂
        decide +kernel
      · simp [idsFor, List.filterMap_cons, h₁, h₂]
  obtain ⟨hsearch, _, _, _, hsame⟩ := build_answers [("a", 1), ("ab", 2), ("a", 1), ("", 4)]
  have hpage : (build [("a", 1), ("ab", 2), ("a", 1), ("", 4)]).search "a" 5 (some 1) =
      .ok (some [1]) := (hsearch "a" 5 (some 1)).trans (by decide +kernel)
  exact ⟨hpage, (hsame _ hmixed "a" 5 (some 1)).trans hpage⟩

end Index

end SignatureSearch.Signature
