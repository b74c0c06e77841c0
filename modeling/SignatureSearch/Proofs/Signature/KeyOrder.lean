/-
# `Proofs.Signature.KeyOrder` — the order of keys that a list of keys fixes

A tree of keys has its branches in the order in which the keys came.  The order
of the keys that this leads to is said here without a tree.  `Before keys a b`
holds in two cases:

    a <+: b, a ≠ b             a key comes before those that it starts
    a = c x .., b = c y ..     keys that part after `c`: `x` comes before `y` if
                               a key with `c x` was there before one with `c y`

It is the order of the keys after a prefix too (`Before.of_after`), and of those
that do not start with some symbol (`Before.of_others`): in both cases only keys
are left out that do not count.
-/
import Mathlib.Data.List.Infix

namespace SignatureSearch.Signature

variable {α : Type} [DecidableEq α]

/-- The place of the first key that starts with `p`; the number of keys, if there is none. -/
def firstWith (keys : List (List α)) (p : List α) : Nat :=
  keys.findIdx fun k => decide (p <+: k)

/-- The order of keys that a list of keys fixes. -/
def Before (keys : List (List α)) (a b : List α) : Prop :=
  (a <+: b ∧ a ≠ b) ∨
    ∃ c x y u v, a = c ++ x :: u ∧ b = c ++ y :: v ∧ x ≠ y ∧
      firstWith keys (c ++ [x]) < firstWith keys (c ++ [y])

omit [DecidableEq α] in
theorem parting_unique {c c' : List α} {x y x' y' : α} {u v u' v' : List α}
    (ha : c ++ x :: u = c' ++ x' :: u') (hb : c ++ y :: v = c' ++ y' :: v') (hxy : x ≠ y)
    (hxy' : x' ≠ y') : c = c' ∧ x = x' ∧ y = y' := by
  induction c generalizing c' with
  | nil =>
      cases c' with
      | nil => exact ⟨rfl, (List.cons.inj ha).1, (List.cons.inj hb).1⟩
      | cons d c' => exact absurd ((List.cons.inj ha).1.trans (List.cons.inj hb).1.symm) hxy
  | cons d c ih =>
      cases c' with
      | nil => exact absurd ((List.cons.inj ha).1.symm.trans (List.cons.inj hb).1) hxy'
      | cons d' c' =>
          obtain ⟨hc, hx, hy⟩ := ih (List.cons.inj ha).2 (List.cons.inj hb).2
          exact ⟨by rw [hc, (List.cons.inj ha).1], hx, hy⟩

omit [DecidableEq α] in
theorem not_prefix_of_parting {c u v : List α} {x y : α} (hxy : x ≠ y) :
    ¬ c ++ x :: u <+: c ++ y :: v := by
  rw [List.prefix_append_right_inj, List.cons_prefix_cons]
  exact fun h => hxy h.1

theorem Before.asymm {keys : List (List α)} {a b : List α} (h : Before keys a b) :
    ¬ Before keys b a := by
  rintro (⟨hba, hne⟩ | ⟨c', y', x', v', u', hb, ha, hyx', hlt'⟩)
  · rcases h with ⟨hab, _⟩ | ⟨c, x, y, u, v, rfl, rfl, hxy, _⟩
    · exact hne (hba.eq_of_length_le hab.length_le)
    · exact not_prefix_of_parting hxy.symm hba
  · rcases h with ⟨hab, _⟩ | ⟨c, x, y, u, v, rfl, rfl, hxy, hlt⟩
    · subst ha hb
      exact not_prefix_of_parting hyx'.symm hab
    · obtain ⟨rfl, rfl, rfl⟩ := parting_unique ha hb hxy hyx'.symm
      exact Nat.lt_asymm hlt hlt'

theorem Before.ne {keys : List (List α)} {a b : List α} (h : Before keys a b) : a ≠ b := by
  rintro rfl
  exact h.asymm h

/-! ## Keys after a prefix, and keys that start with another symbol -/

/-- What comes after `p` in the keys that start with it. -/
def after (p : List α) (keys : List (List α)) : List (List α) :=
  keys.filterMap p.isPrefixOf?

/-- The keys that do not start with `a`. -/
def others (a : α) (keys : List (List α)) : List (List α) :=
  keys.filter fun k => decide (k.head? ≠ some a)

theorem mem_after {p k : List α} {keys : List (List α)} : k ∈ after p keys ↔ p ++ k ∈ keys := by
  simp only [after, List.mem_filterMap, List.isPrefixOf?_eq_some_iff_append_eq]
  constructor
  · rintro ⟨_, hk, rfl⟩
    exact hk
  · intro hk
    exact ⟨_, hk, rfl⟩

theorem mem_others {a : α} {k : List α} {keys : List (List α)} :
    k ∈ others a keys ↔ k ∈ keys ∧ k.head? ≠ some a := by
  simp [others]

theorem after_nil (keys : List (List α)) : after [] keys = keys := by
  simp [after, List.isPrefixOf?]

theorem after_cons (a : α) (p : List α) (keys : List (List α)) :
    after (a :: p) keys = after p (after [a] keys) := by
  rw [after, after, after, List.filterMap_filterMap]
  congr 1
  funext k
  cases k with
  | nil => rfl
  | cons b k => by_cases h : a = b <;> simp [List.isPrefixOf?, h]

theorem after_others {a b : α} (h : a ≠ b) (keys : List (List α)) :
    after [a] (others b keys) = after [a] keys := by
  rw [after, others, List.filterMap_filter]
  congr 1
  funext k
  cases k with
  | nil => rfl
  | cons c k => by_cases hc : c = b <;> simp [List.isPrefixOf?, hc, h]

theorem after_concat_self (a : α) (rest : List α) (keys : List (List α)) :
    after [a] (keys ++ [a :: rest]) = after [a] keys ++ [rest] := by
  simp [after, List.isPrefixOf?]

theorem after_concat_of_ne {a b : α} (h : a ≠ b) (rest : List α) (keys : List (List α)) :
    after [b] (keys ++ [a :: rest]) = after [b] keys := by
  simp [after, List.isPrefixOf?, Ne.symm h]

theorem others_concat_self (a : α) (rest : List α) (keys : List (List α)) :
    others a (keys ++ [a :: rest]) = others a keys := by
  simp [others]

theorem others_concat_of_ne {a b : α} (h : a ≠ b) (rest : List α) (keys : List (List α)) :
    others b (keys ++ [a :: rest]) = others b keys ++ [a :: rest] := by
  simp [others, h]

theorem after_eq_nil {a : α} {keys : List (List α)} (h : ∀ k ∈ keys, k = []) :
    after [a] keys = [] := by
  rw [List.eq_nil_iff_forall_not_mem]
  intro k hk
  exact absurd (h _ (mem_after.mp hk)) (List.cons_ne_nil a k)

omit [DecidableEq α] in
theorem findSome?_head?_concat {a : α} {rest : List α} {keys : List (List α)}
    (h : ∀ k ∈ keys, k = []) : (keys ++ [a :: rest]).findSome? List.head? = some a := by
  have hnone : keys.findSome? List.head? = none :=
    List.findSome?_eq_none_iff.mpr fun k hk => by rw [h k hk]; rfl
  rw [List.findSome?_append, hnone]
  rfl

/-- The first place among some items, those that `f` keeps, comes first among all items too. -/
theorem findIdx_lt_of_filterMap {β γ : Type} (f : β → Option γ) {P Q : γ → Bool} {l : List β}
    (h : (l.filterMap f).findIdx P < (l.filterMap f).findIdx Q) :
    (l.findIdx fun b => (f b).any P) < l.findIdx fun b => (f b).any Q := by
  induction l with
  | nil => exact absurd h (Nat.lt_irrefl _)
  | cons b l ih =>
      cases hb : f b with
      | none =>
          rw [List.filterMap_cons_none hb] at h
          simpa [List.findIdx_cons, hb] using ih h
      | some c =>
          rw [List.filterMap_cons_some hb, List.findIdx_cons, List.findIdx_cons] at h
          rw [List.findIdx_cons, List.findIdx_cons, hb]
          cases hP : P c with
          | true =>
              cases hQ : Q c with
              | true => simp [hP, hQ] at h
              | false => simp [hP, hQ]
          | false =>
              cases hQ : Q c with
              | true => simp [hQ] at h
              | false =>
                  simp only [hP, hQ, cond_false, Nat.add_lt_add_iff_right] at h
                  simpa [hP, hQ] using ih h

theorem firstWith_lt_of_after {p q q' : List α} {keys : List (List α)}
    (h : firstWith (after p keys) q < firstWith (after p keys) q') :
    firstWith keys (p ++ q) < firstWith keys (p ++ q') := by
  have hany : ∀ q k : List α,
      ((p.isPrefixOf? k).any fun k => decide (q <+: k)) = decide (p ++ q <+: k) := by
    intro q k
    cases hk : p.isPrefixOf? k with
    | none =>
        have hno : ¬ p ++ q <+: k := by
          rintro ⟨r, rfl⟩
          rw [List.isPrefixOf?_eq_some_iff_append_eq.mpr (List.append_assoc p q r).symm] at hk
          exact absurd hk (Option.some_ne_none _)
        simp [hno]
    | some r =>
        obtain rfl := List.isPrefixOf?_eq_some_iff_append_eq.mp hk
        simp [List.prefix_append_right_inj]
  have := findIdx_lt_of_filterMap p.isPrefixOf? h
  simpa only [hany, firstWith] using this

theorem firstWith_lt_of_others {a x y : α} {q q' : List α} {keys : List (List α)} (hx : x ≠ a)
    (hy : y ≠ a) (h : firstWith (others a keys) (x :: q) < firstWith (others a keys) (y :: q')) :
    firstWith keys (x :: q) < firstWith keys (y :: q') := by
  have hany : ∀ (x : α) (q k : List α), x ≠ a →
      ((Option.guard (fun k => decide (k.head? ≠ some a)) k).any fun k => decide (x :: q <+: k)) =
        decide (x :: q <+: k) := by
    intro x q k hx
    cases k with
    | nil => simp [Option.guard]
    | cons b k => by_cases hb : b = a <;> simp [Option.guard, hb, hx]
  have hguard : others a keys = keys.filterMap (Option.guard fun k => decide (k.head? ≠ some a)) :=
    (congrFun List.filterMap_eq_filter keys).symm
  rw [hguard] at h
  have := findIdx_lt_of_filterMap _ h
  simpa only [hany x q _ hx, hany y q' _ hy, firstWith] using this

theorem Before.of_after {p a b : List α} {keys : List (List α)} (h : Before (after p keys) a b) :
    Before keys (p ++ a) (p ++ b) := by
  rcases h with ⟨hab, hne⟩ | ⟨c, x, y, u, v, rfl, rfl, hxy, hlt⟩
  · exact Or.inl ⟨(List.prefix_append_right_inj p).mpr hab,
      fun he => hne (List.append_cancel_left he)⟩
  · refine Or.inr ⟨p ++ c, x, y, u, v, ?_, ?_, hxy, ?_⟩
    · rw [List.append_assoc]
    · rw [List.append_assoc]
    · rw [List.append_assoc, List.append_assoc]
      exact firstWith_lt_of_after hlt

/-- The order of keys that do not start with a symbol is that of all keys. -/
theorem Before.of_others {s : α} {a b : List α} {keys : List (List α)}
    (ha : a.head? ≠ some s) (hb : b.head? ≠ some s) (h : Before (others s keys) a b) :
    Before keys a b := by
  rcases h with hab | ⟨c, x, y, u, v, rfl, rfl, hxy, hlt⟩
  · exact Or.inl hab
  · refine Or.inr ⟨c, x, y, u, v, rfl, rfl, hxy, ?_⟩
    cases c with
    | nil =>
        exact firstWith_lt_of_others (fun h => ha (congrArg some h))
          (fun h => hb (congrArg some h)) hlt
    | cons d c =>
        have hd : d ≠ s := fun h => ha (congrArg some h)
        exact firstWith_lt_of_others hd hd hlt

/-- The symbol that the first of all keys starts with comes before every other one. -/
theorem firstWith_lt_of_first {a b : α} {keys : List (List α)}
    (h : keys.findSome? List.head? = some a) (hb : b ≠ a) :
    firstWith keys [a] < firstWith keys [b] := by
  induction keys with
  | nil => simp at h
  | cons k keys ih =>
      cases k with
      | nil =>
          rw [List.findSome?_cons] at h
          simpa [firstWith, List.findIdx_cons] using ih h
      | cons c k =>
          rw [List.findSome?_cons] at h
          obtain rfl : c = a := Option.some.inj h
          simp [firstWith, List.findIdx_cons, hb]

/-! ## Other symbols -/

omit [DecidableEq α] in
theorem map_prefix_map_iff {β : Type} {f : α → β} (hf : Function.Injective f) {a b : List α} :
    a.map f <+: b.map f ↔ a <+: b := by
  rw [List.prefix_map_iff]
  constructor
  · rintro ⟨c, hc, he⟩
    rwa [List.map_injective_iff.mpr hf he]
  · exact fun h => ⟨a, h, rfl⟩

theorem firstWith_map {β : Type} [DecidableEq β] {f : α → β} (hf : Function.Injective f)
    (keys : List (List α)) (p : List α) :
    firstWith (keys.map (List.map f)) (p.map f) = firstWith keys p := by
  rw [firstWith, firstWith, List.findIdx_map]
  simp only [Function.comp_def, map_prefix_map_iff hf]

theorem Before.of_map {β : Type} [DecidableEq β] {f : α → β} (hf : Function.Injective f)
    {keys : List (List α)} {a b : List α}
    (h : Before (keys.map (List.map f)) (a.map f) (b.map f)) : Before keys a b := by
  rcases h with ⟨hab, hne⟩ | ⟨c, x, y, u, v, ha, hb, hxy, hlt⟩
  · exact Or.inl ⟨(map_prefix_map_iff hf).mp hab, fun he => hne (congrArg _ he)⟩
  · obtain ⟨c', xu, rfl, rfl, hxu⟩ := List.map_eq_append_iff.mp ha
    obtain ⟨x', u', rfl, rfl, rfl⟩ := List.map_eq_cons_iff.mp hxu
    obtain ⟨c'', yv, rfl, hc, hyv⟩ := List.map_eq_append_iff.mp hb
    obtain ⟨y', v', rfl, rfl, rfl⟩ := List.map_eq_cons_iff.mp hyv
    obtain rfl := List.map_injective_iff.mpr hf hc
    refine Or.inr ⟨c'', x', y', u', v', rfl, rfl, fun he => hxy (congrArg f he), ?_⟩
    have hmap : ∀ z, c''.map f ++ [f z] = (c'' ++ [z]).map f := fun z => by simp
    rwa [hmap, hmap, firstWith_map hf, firstWith_map hf] at hlt

end SignatureSearch.Signature
