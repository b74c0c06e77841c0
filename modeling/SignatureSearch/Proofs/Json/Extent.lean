/-
# `Proofs.Json.Extent` — a text that is read is long enough for the texts in it

The extent of a value is the number of characters that a text, or the texts in
an array, cannot be written without: the characters themselves and two quotes
for each of them.  Escapes only make a text longer, and so does all the rest.

    token                          its extent is at most what it takes (`extent_le_of_scalar?`)
    all tokens of a text           their extents together are at most its length (`extent_scan`)
    one step of the machine        the extent of the token is what is added at most (`extent_step`)

So the extent of a value is at most the length of the text that it is read from
(`extent_le_of_read`).
-/
import Mathlib.Algebra.Order.BigOperators.Group.List
import Mathlib.Algebra.Order.Ring.Nat
import SignatureSearch.Json.Reader

namespace SignatureSearch.Json

def quotedLength : Json → Nat
  | .str s => s.length + 2
  | _ => 0

/-- What a text takes at least, or the texts that are items of an array. -/
def extent : Json → Nat
  | .arr items => (items.map quotedLength).sum
  | v => v.quotedLength

theorem quotedLength_le_extent (v : Json) : v.quotedLength ≤ v.extent := by
  cases v with
  | arr items => exact Nat.zero_le _
  | _ => exact Nat.le_refl _

/-! ## Tokens -/

namespace Token

/-- The extent of the value that a token is. -/
def extent : Token → Nat
  | .value v => v.extent
  | _ => 0

theorem length_add_of_text? {cs rest : List Char} {units : List Nat}
    (h : text? cs = some (units, rest)) : units.length + rest.length + 1 ≤ cs.length := by
  fun_induction text? cs generalizing units rest with
  | case1 => cases h
  | case2 tail =>
      obtain ⟨rfl, rfl⟩ := Prod.mk.inj (Option.some.inj h)
      simp
  | case3 a b c d tail n units' rest' _ _ ih =>
      obtain ⟨rfl, rfl⟩ := Prod.mk.inj (Option.some.inj h)
      have hrest := ih ‹_›
      simp only [List.length_cons]
      omega
  | case4 => cases h
  | case5 c tail _ n units' rest' _ _ ih =>
      obtain ⟨rfl, rfl⟩ := Prod.mk.inj (Option.some.inj h)
      have hrest := ih ‹_›
      simp only [List.length_cons]
      omega
  | case6 => cases h
  | case7 => cases h
  | case8 c tail _ _ _ _ ih =>
      obtain ⟨⟨units', rest'⟩, hrest, heq⟩ := Option.map_eq_some_iff.mp h
      obtain ⟨rfl, rfl⟩ := Prod.mk.inj heq
      have hle := ih hrest
      simp only [List.length_cons]
      omega

theorem length_ofUnits16_le (units : List Nat) :
    (Text.Encoding.ofUnits16 units).length ≤ units.length := by
  fun_induction Text.Encoding.ofUnits16 units with
  | case1 => exact Nat.le_refl _
  | case2 hi lo rest _ ih =>
      simp only [List.length_cons]
      omega
  | case3 hi lo rest _ ih => exact Nat.succ_le_succ ih
  | case4 => exact Nat.le_refl _

theorem extent_number (negative : Bool) (whole rest : List Char) :
    (number negative whole rest).1.extent = 0 := by
  unfold number
  dsimp only
  split <;> rfl

theorem extent_numberFrom (negative : Bool) (c : Char) (rest : List Char) :
    (numberFrom negative c rest).1.extent = 0 := by
  unfold numberFrom
  split <;> exact extent_number _ _ _

theorem extent_of_negative? {cs rest : List Char} {t : Token}
    (h : negative? cs = some (t, rest)) : t.extent = 0 := by
  unfold negative? at h
  split at h
  · obtain ⟨rfl, -⟩ := Prod.mk.inj (Option.some.inj h)
    rfl
  · rename_i d tail _
    split at h
    · have hzero := extent_numberFrom true d tail
      rw [Option.some.inj h] at hzero
      exact hzero
    · exact absurd h nofun
  · exact absurd h nofun

theorem extent_le_of_scalar? {c : Char} {rest rest' : List Char} {t : Token}
    (h : scalar? c rest = some (t, rest')) : t.extent + rest'.length ≤ rest.length + 1 := by
  by_cases hquote : c = '"'
  · unfold scalar? at h
    rw [if_pos hquote] at h
    obtain ⟨⟨units, tail⟩, htext, heq⟩ := Option.map_eq_some_iff.mp h
    obtain ⟨rfl, rfl⟩ := Prod.mk.inj heq
    have hunits := length_add_of_text? htext
    have hchars := length_ofUnits16_le units
    show (String.ofList (Text.Encoding.ofUnits16 units)).length + 2 + tail.length ≤ _
    rw [String.length_ofList]
    omega
  · have hrest := length_of_scalar? h
    have hzero : t.extent = 0 := by
      unfold scalar? at h
      rw [if_neg hquote] at h
      split at h
      · have hnumber := extent_numberFrom false c rest
        rw [Option.some.inj h] at hnumber
        exact hnumber
      · split at h
        case h_6 => exact extent_of_negative? h
        case h_7 => exact absurd h nofun
        all_goals
          obtain ⟨rfl, -⟩ := Prod.mk.inj (Option.some.inj h)
          rfl
    omega

theorem extent_of_mark? {c : Char} {t : Token} (h : mark? c = some t) : t.extent = 0 := by
  unfold mark? at h
  split at h
  case h_7 => exact absurd h nofun
  all_goals
    obtain rfl := Option.some.inj h
    rfl

theorem extent_scan (cs : List Char) : ((scan cs).map extent).sum ≤ cs.length := by
  fun_induction scan cs with
  | case1 => exact Nat.le_refl _
  | case2 c rest _ ih => exact Nat.le_succ_of_le ih
  | case3 c rest _ mark hmark ih =>
      rw [List.map_cons, List.sum_cons, extent_of_mark? hmark, Nat.zero_add]
      exact Nat.le_succ_of_le ih
  | case4 c rest _ _ t rest' hscalar _ ih =>
      have hle := extent_le_of_scalar? hscalar
      rw [List.map_cons, List.sum_cons, List.length_cons]
      omega
  | case5 => exact Nat.zero_le _

end Token

/-! ## The machine -/

/-- The extent of what is in containers that are still open. -/
def stackExtent : List Frame → Nat
  | [] => 0
  | .array items :: stack => (items.map quotedLength).sum + stackExtent stack
  | .object _ _ :: stack => stackExtent stack

namespace Mode

/-- The extent of what has been read. -/
def extent : Mode → Nat
  | .value stack | .firstItem stack | .firstKey stack | .key _ stack | .colon _ _ stack
  | .afterField _ stack => stackExtent stack
  | .afterItem items stack => (items.map quotedLength).sum + stackExtent stack
  | .done v => v.extent

theorem extent_deliver (v : Json) (stack : List Frame) :
    (deliver v stack).extent ≤ v.extent + stackExtent stack := by
  match stack with
  | [] => exact Nat.le_refl _
  | .array items :: stack =>
      have hv := quotedLength_le_extent v
      show ((v :: items).map quotedLength).sum + stackExtent stack ≤
        v.extent + ((items.map quotedLength).sum + stackExtent stack)
      rw [List.map_cons, List.sum_cons]
      omega
  | .object fields name :: stack => exact Nat.le_add_left _ _

theorem extent_of_opened {stack : List Frame} {c : Container} {m : Mode}
    (h : opened stack c = .ok m) : m.extent = stackExtent stack := by
  unfold opened at h
  split at h
  · exact absurd h nofun
  · cases c with
    | array =>
        obtain rfl := Except.ok.inj h
        rfl
    | object =>
        obtain rfl := Except.ok.inj h
        rfl

theorem extent_of_start {stack : List Frame} {t : Token} {m : Mode}
    (h : start stack t = .ok m) : m.extent ≤ t.extent + stackExtent stack := by
  cases t with
  | value v =>
      obtain rfl := Except.ok.inj h
      exact extent_deliver v stack
  | leftBracket => exact extent_of_opened h ▸ Nat.le_add_left _ _
  | leftBrace => exact extent_of_opened h ▸ Nat.le_add_left _ _
  | _ => exact absurd h nofun

/-- What an object holds is given up when it is complete, and nothing else is. -/
theorem extent_step {m m' : Mode} {t : Token} (h : step m t = .ok m') :
    m'.extent ≤ t.extent + m.extent := by
  unfold step at h
  split at h
  · exact extent_of_start h
  · obtain rfl := Except.ok.inj h
    exact extent_deliver _ _
  · have hstart := extent_of_start h
    rwa [stackExtent, List.map_nil, List.sum_nil, Nat.zero_add] at hstart
  · obtain rfl := Except.ok.inj h
    exact Nat.le_add_left _ _
  · rename_i items stack
    obtain rfl := Except.ok.inj h
    have hdeliver := extent_deliver (.arr items.reverse) stack
    rw [Json.extent, List.map_reverse, List.sum_reverse] at hdeliver
    exact Nat.le_trans hdeliver (Nat.le_add_left _ _)
  · obtain rfl := Except.ok.inj h
    exact extent_deliver _ _
  · obtain rfl := Except.ok.inj h
    exact Nat.le_add_left _ _
  · obtain rfl := Except.ok.inj h
    exact Nat.le_add_left _ _
  · obtain rfl := Except.ok.inj h
    exact Nat.le_add_left _ _
  · obtain rfl := Except.ok.inj h
    exact Nat.le_add_left _ _
  · obtain rfl := Except.ok.inj h
    exact extent_deliver _ _
  · exact absurd h nofun

theorem extent_foldlM {tokens : List Token} {m m' : Mode} (h : tokens.foldlM step m = .ok m') :
    m'.extent ≤ (tokens.map Token.extent).sum + m.extent := by
  induction tokens generalizing m with
  | nil =>
      obtain rfl := Except.ok.inj h
      exact Nat.le_add_left _ _
  | cons t rest ih =>
      rw [List.foldlM_cons] at h
      cases hstep : step m t with
      | error e =>
          rw [hstep] at h
          exact absurd h nofun
      | ok next =>
          rw [hstep] at h
          have hfirst := extent_step hstep
          have hlater := ih h
          rw [List.map_cons, List.sum_cons]
          omega

end Mode

theorem extent_le_of_read {cs : List Char} {v : Json} (h : read cs = .ok v) :
    v.extent ≤ cs.length := by
  unfold read at h
  cases hrun : (Token.scan cs).foldlM Mode.step (.value []) with
  | error e =>
      rw [hrun] at h
      exact absurd h nofun
  | ok m =>
      rw [hrun] at h
      have hextent := Mode.extent_foldlM hrun
      cases m with
      | done w =>
          obtain rfl := Except.ok.inj h
          exact Nat.le_trans hextent (Token.extent_scan cs)
      | _ => exact absurd h nofun

end SignatureSearch.Json
