/-
# `Proofs.Elm.HeaderGrammar` — the header of a module, as a grammar

The reader of a header accepts exactly the texts of a grammar.  Up to the
closing parenthesis a header is

    A module B exposing S ( E )

where `module` stands at its first place in the text and `exposing` at its
first place after that, `S` is blanks and commas, and `E` is one of

    T .. T                              everything is exposed
    T                                   nothing is
    T i T , T i T , … , T i T           the items, in order and with repetitions

`T` is trivia.  An item `i` is an operator in parentheses, a name that starts
with a lowercase character, or another name, perhaps with a group in
parentheses right after it.

Soundness (`exportSpec_sound`) goes along the reader; completeness
(`exportSpec_complete`) goes along the grammar, and rests on what may follow an
item: trivia, a comma or a parenthesis, none of which could continue a name.
-/
import SignatureSearch.Elm.Header
import SignatureSearch.Proofs.Elm.Nesting

namespace SignatureSearch.Elm

open Text

/-! ## Names -/

/-- A non-empty run of identifier characters, of a kind by its first character. -/
structure IsName (kind : NameKind) (name : List Char) : Prop where
  ne_nil : name ≠ []
  chars : ∀ c ∈ name, isIdentifierChar c = true
  kind_eq : NameKind.ofName name = kind

theorem isIdentifierChar_of_isBlank {c : Char} (h : isBlank c = true) :
    isIdentifierChar c = false := by
  have hall : blanks.all (fun c => !isIdentifierChar c) = true := by decide +kernel
  simpa using List.all_eq_true.mp hall c (mem_blanks h)

theorem isBlank_of_isIdentifierChar {c : Char} (h : isIdentifierChar c = true) :
    isBlank c = false := by
  cases hb : isBlank c with
  | false => rfl
  | true =>
      rw [isIdentifierChar_of_isBlank hb] at h
      exact Bool.noConfusion h

theorem ne_of_isIdentifierChar {c d : Char} (h : isIdentifierChar c = true)
    (hd : isIdentifierChar d = false) : c ≠ d := by
  rintro rfl
  rw [h] at hd
  exact Bool.noConfusion hd

theorem isBlankOrComma_of_isIdentifierChar {c : Char} (h : isIdentifierChar c = true) :
    isBlankOrComma c = false := by
  rw [isBlankOrComma, isBlank_of_isIdentifierChar h]
  simpa using ne_of_isIdentifierChar h (by decide)

theorem IsName.head {kind : NameKind} {name : List Char} (h : IsName kind name) :
    ∃ c tail, name = c :: tail ∧ isIdentifierChar c = true := by
  obtain ⟨c, tail, rfl⟩ := List.exists_cons_of_ne_nil h.ne_nil
  exact ⟨c, tail, rfl, h.chars c List.mem_cons_self⟩

theorem identifier_append_of_stop {name rest : List Char}
    (hn : ∀ c ∈ name, isIdentifierChar c = true)
    (hs : ∀ c ∈ rest.head?, isIdentifierChar c = false) :
    identifier (name ++ rest) = name ∧ afterIdentifier (name ++ rest) = rest := by
  have hrun : MaximalRun isIdentifierChar name rest := ⟨hn, hs⟩
  exact ⟨hrun.takeWhile_eq, hrun.dropWhile_eq⟩

/-! ## The grammar -/

/-- An item of an exposing list, and the name it exposes. -/
inductive Item : List Char → ExportedName → Prop
  | operator {op : List Char} : op ≠ [] → (∀ c ∈ op, isOperatorChar c = true) →
      Item ('(' :: op ++ [')']) (.function (String.ofList ('(' :: op ++ [')'])) none)
  | function {name : List Char} : IsName .function name →
      Item name (.function (String.ofList name) none)
  | type {name : List Char} : IsName .type name → Item name (.type (String.ofList name) none)
  | group {name group : List Char} : IsName .type name → (∀ c ∈ group, isGroupChar c = true) →
      Item (name ++ '(' :: group ++ [')'])
        (.type (String.ofList name) (some (String.ofList (group.filter fun c => !isBlank c))))

/-- One item or more, with trivia around each and commas between them. -/
inductive ItemList : List Char → List ExportedName → Prop
  | one {t i t' : List Char} {n : ExportedName} :
      Trivia t → Item i n → Trivia t' → ItemList (t ++ i ++ t') [n]
  | more {t i t' e : List Char} {n : ExportedName} {ns : List ExportedName} :
      Trivia t → Item i n → Trivia t' → ItemList e ns → ItemList (t ++ i ++ t' ++ ',' :: e) (n :: ns)

/-- What stands between the parentheses of an exposing clause. -/
inductive Exposes : List Char → ExportSpec → Prop
  | all {t t' : List Char} : Trivia t → Trivia t' → Exposes (t ++ ['.', '.'] ++ t') .all
  | nothing {t : List Char} : Trivia t → Exposes t (.list [])
  | items {e : List Char} {ns : List ExportedName} : ItemList e ns → Exposes e (.list ns)

/-- Up to offset `e`, the text is a header that exposes `spec` in a module named `name`. -/
def HeaderUpTo (text : List Char) (e : Nat) (spec : ExportSpec) (name : List Char) : Prop :=
  e ≤ text.length ∧ ∃ A B S E : List Char,
    text.take e = A ++ "module".toList ++ B ++ "exposing".toList ++ S ++ ['('] ++ E ++ [')'] ∧
    FirstIn "module".toList text A ∧
    FirstIn "exposing".toList (text.drop (A.length + "module".toList.length)) B ∧
    (∀ c ∈ S, isBlankOrComma c = true) ∧ Collapses B name ∧ Exposes E spec

/-! ## Soundness: what is read is in the grammar -/

theorem operatorItem?_sound {cs rest : List Char} {n : ExportedName}
    (h : operatorItem? cs = some (n, rest)) :
    ∃ i, '(' :: cs = i ++ rest ∧ Item i n := by
  obtain ⟨op, tail, rfl, hop⟩ := exists_maximalRun isOperatorChar cs
  simp only [operatorItem?, hop.takeWhile_eq, hop.dropWhile_eq] at h
  split at h
  · split at h
    · exact absurd h (by simp)
    · rename_i hne
      obtain ⟨rfl, rfl⟩ := Prod.mk.inj (Option.some.inj h)
      refine ⟨_, ?_, .operator (by simpa using hne) hop.inside⟩
      simp
  · exact absurd h (by simp)

theorem typeItem_sound {name cs rest : List Char} {n : ExportedName} (hn : IsName .type name)
    (h : typeItem (String.ofList name) cs = .ok (n, rest)) :
    ∃ i, name ++ cs = i ++ rest ∧ Item i n := by
  unfold typeItem at h
  split at h
  · rename_i inside
    obtain ⟨group, tail, rfl, hgroup⟩ := exists_maximalRun isGroupChar inside
    rw [hgroup.takeWhile_eq, hgroup.dropWhile_eq, squeeze_eq_filter] at h
    split at h
    · obtain ⟨rfl, rfl⟩ := Prod.mk.inj (Except.ok.inj h)
      refine ⟨_, ?_, .group hn hgroup.inside⟩
      simp
    · exact absurd h (by simp)
  · obtain ⟨rfl, rfl⟩ := Prod.mk.inj (Except.ok.inj h)
    exact ⟨name, rfl, .type hn⟩

theorem bareItem_sound {cs rest : List Char} {n : ExportedName}
    (h : bareItem cs = .ok (n, rest)) : ∃ i, cs = i ++ rest ∧ Item i n := by
  unfold bareItem at h
  split at h
  · split at h
    · rename_i hf
      rw [Except.ok.inj h] at hf
      exact operatorItem?_sound hf
    · exact absurd h (by simp)
  · obtain ⟨name, tail, rfl, hname⟩ := exists_maximalRun isIdentifierChar cs
    obtain ⟨hid, haf⟩ := identifier_append_of_stop hname.inside hname.stops
    simp only [hid, haf] at h
    split at h
    · exact absurd h (by simp)
    · rename_i hne
      have hne : name ≠ [] := by simpa using hne
      split at h
      · rename_i hk
        obtain ⟨rfl, rfl⟩ := Prod.mk.inj (Except.ok.inj h)
        exact ⟨name, rfl, .function ⟨hne, hname.inside, hk⟩⟩
      · rename_i hk
        exact typeItem_sound ⟨hne, hname.inside, hk⟩ h

theorem item_sound {cs rest : List Char} {n : ExportedName} (h : item cs = .ok (n, rest))
    (hr : rest ≠ []) :
    ∃ t i t', cs = t ++ i ++ t' ++ rest ∧ Trivia t ∧ Item i n ∧ Trivia t' := by
  rw [item] at h
  cases hb : bareItem (skipTrivia cs) with
  | error e => rw [hb] at h; exact absurd h (by simp [Except.map])
  | ok found =>
      obtain ⟨n', r⟩ := found
      rw [hb] at h
      obtain ⟨rfl, rfl⟩ := Prod.mk.inj (Except.ok.inj h)
      obtain ⟨i, hi, hitem⟩ := bareItem_sound hb
      obtain ⟨t', ht', hr'⟩ := exists_trivia hr
      have hne : skipTrivia cs ≠ [] := by
        intro he
        rw [he] at hb
        exact absurd hb (by simp [bareItem, identifier])
      obtain ⟨t, ht, hcs⟩ := exists_trivia hne
      refine ⟨t, i, t', ?_, ht, hitem, ht'⟩
      rw [List.append_assoc, ← hr', List.append_assoc, ← hi, ← hcs]

theorem items_eq (cs : List Char) :
    items cs =
      match item cs with
      | .error e => .error e
      | .ok (name, ',' :: rest) => (items rest).map fun (names, rest) => (name :: names, rest)
      | .ok (name, rest) => .ok ([name], rest) := by
  rw [items]
  split
  · rename_i h
    simp only [h]
  · rename_i h
    simp only [h]
  · rename_i h
    simp only [h]

theorem items_sound {cs : List Char} : ∀ {ns : List ExportedName} {rest : List Char},
    items cs = .ok (ns, rest) → rest ≠ [] → ∃ e, cs = e ++ rest ∧ ItemList e ns := by
  induction hn : cs.length using Nat.strong_induction_on generalizing cs with
  | _ n ih =>
      intro ns rest h hr
      rw [items_eq] at h
      split at h
      · exact absurd h (by simp)
      · rename_i name tail hi
        obtain ⟨t, i, t', rfl, ht, hitem, ht'⟩ := item_sound hi (by simp)
        cases hm : items tail with
        | error e => rw [hm] at h; exact absurd h (by simp [Except.map])
        | ok found =>
            obtain ⟨ns', r⟩ := found
            rw [hm] at h
            obtain ⟨rfl, rfl⟩ := Prod.mk.inj (Except.ok.inj h)
            have hlt : tail.length < n := by
              rw [← hn]
              simp only [List.length_append, List.length_cons]
              omega
            obtain ⟨e, rfl, he⟩ := ih _ hlt rfl hm hr
            exact ⟨_, by simp, .more ht hitem ht' he⟩
      · rename_i hi
        obtain ⟨rfl, rfl⟩ := Prod.mk.inj (Except.ok.inj h)
        obtain ⟨t, i, t', rfl, ht, hitem, ht'⟩ := item_sound hi hr
        exact ⟨_, rfl, .one ht hitem ht'⟩

theorem ItemList.trivia_append {t e : List Char} {ns : List ExportedName} (ht : Trivia t)
    (h : ItemList e ns) : ItemList (t ++ e) ns := by
  cases h with
  | @one t₁ i t' n h₁ hi h' =>
      have := ItemList.one (ht.append h₁) hi h'
      simpa using this
  | @more t₁ i t' e n ns h₁ hi h' he =>
      have := ItemList.more (ht.append h₁) hi h' he
      simpa using this

theorem exportSpec_sound {cs rest : List Char} {spec : ExportSpec}
    (h : exportSpec cs = .ok (spec, rest)) (hr : rest ≠ []) :
    ∃ e, cs = e ++ rest ∧ Exposes e spec := by
  unfold exportSpec at h
  split at h
  · rename_i tail hs
    obtain ⟨rfl, rfl⟩ := Prod.mk.inj (Except.ok.inj h)
    have hne : skipTrivia cs ≠ [] := by simp [hs]
    obtain ⟨t, ht, hcs⟩ := exists_trivia hne
    obtain ⟨t', ht', htail⟩ := exists_trivia hr
    refine ⟨t ++ ['.', '.'] ++ t', ?_, .all ht ht'⟩
    rw [List.append_assoc, ← htail, List.append_assoc, hcs, hs]
    rfl
  · rename_i tail hs
    obtain ⟨rfl, rfl⟩ := Prod.mk.inj (Except.ok.inj h)
    have hne : skipTrivia cs ≠ [] := by simp [hs]
    obtain ⟨t, ht, hcs⟩ := exists_trivia hne
    exact ⟨t, by rw [← hs, ← hcs], .nothing ht⟩
  · cases hm : items (skipTrivia cs) with
    | error e => rw [hm] at h; exact absurd h (by simp [Except.map])
    | ok found =>
        obtain ⟨ns, r⟩ := found
        rw [hm] at h
        obtain ⟨rfl, rfl⟩ := Prod.mk.inj (Except.ok.inj h)
        obtain ⟨e, he, hlist⟩ := items_sound hm hr
        have hne : skipTrivia cs ≠ [] := by
          rw [he]
          simp [hr]
        obtain ⟨t, ht, hcs⟩ := exists_trivia hne
        refine ⟨t ++ e, ?_, .items (hlist.trivia_append ht)⟩
        rw [List.append_assoc, ← he, ← hcs]

/-! ## Completeness: what is in the grammar is read -/

theorem bareItem_name {kind : NameKind} {name rest : List Char} (hn : IsName kind name)
    (hs : ∀ c ∈ rest.head?, isIdentifierChar c = false) :
    bareItem (name ++ rest) =
      match NameKind.ofName name with
      | .function => .ok (.function (String.ofList name) none, rest)
      | .type => typeItem (String.ofList name) rest := by
  obtain ⟨hid, haf⟩ := identifier_append_of_stop hn.chars hs
  unfold bareItem
  split
  · rename_i heq
    -- A name does not start with a parenthesis.
    obtain ⟨c, tail, rfl, hc⟩ := hn.head
    obtain ⟨rfl, _⟩ := List.cons.inj heq
    exact absurd hc (by decide)
  · have hemp : name.isEmpty = false := by simpa using hn.ne_nil
    simp only [hid, haf, hemp]
    rfl

theorem bareItem_complete {i rest : List Char} {n : ExportedName} (h : Item i n)
    (hs : ∀ c ∈ rest.head?, isIdentifierChar c = false) (hp : rest.head? ≠ some '(') :
    bareItem (i ++ rest) = .ok (n, rest) := by
  cases h with
  | @operator op hne hop =>
      have hrun : MaximalRun isOperatorChar op (')' :: rest) :=
        maximalRun_cons hop (by decide) rest
      have happ : '(' :: op ++ [')'] ++ rest = '(' :: (op ++ ')' :: rest) := by simp
      have hemp : op.isEmpty = false := by simpa using hne
      rw [happ]
      simp [bareItem, operatorItem?, hrun.takeWhile_eq, hrun.dropWhile_eq, hemp]
  | function hn => rw [bareItem_name hn hs, hn.kind_eq]
  | type hn =>
      rw [bareItem_name hn hs, hn.kind_eq]
      simp only [typeItem]
      split
      · exact absurd rfl hp
      · rfl
  | @group name group hn hg =>
      have hrun : MaximalRun isGroupChar group (')' :: rest) :=
        maximalRun_cons hg (by decide) rest
      have happ : name ++ '(' :: group ++ [')'] ++ rest = name ++ '(' :: (group ++ ')' :: rest) := by
        simp
      have hparen : ∀ c ∈ ('(' :: (group ++ ')' :: rest)).head?, isIdentifierChar c = false := by
        intro c hc
        obtain rfl := Option.mem_some.mp hc
        decide
      rw [happ, bareItem_name hn hparen, hn.kind_eq]
      simp [typeItem, hrun.takeWhile_eq, hrun.dropWhile_eq, squeeze_eq_filter]

theorem Item.head {i : List Char} {n : ExportedName} (h : Item i n) :
    ∃ c tail, i = c :: tail ∧ (c = '(' ∨ isIdentifierChar c = true) := by
  have hname : ∀ {kind : NameKind} {name : List Char}, IsName kind name →
      ∃ c tail, name = c :: tail ∧ (c = '(' ∨ isIdentifierChar c = true) := by
    intro kind name hn
    obtain ⟨c, tail, rfl, hc⟩ := hn.head
    exact ⟨c, tail, rfl, Or.inr hc⟩
  cases h with
  | operator _ _ => exact ⟨'(', _, rfl, Or.inl rfl⟩
  | function hn => exact hname hn
  | type hn => exact hname hn
  | group hn _ =>
      obtain ⟨c, tail, rfl, hc⟩ := hname hn
      exact ⟨c, _, rfl, hc⟩

theorem Item.solid {i : List Char} {n : ExportedName} (h : Item i n) (rest : List Char) :
    Solid (i ++ rest) := by
  obtain ⟨c, tail, rfl, rfl | hc⟩ := h.head
  · exact solid_cons _ (by decide) (by decide) (by decide)
  · exact solid_cons _ (isBlank_of_isIdentifierChar hc)
      (ne_of_isIdentifierChar hc (by decide)) (ne_of_isIdentifierChar hc (by decide))

/-- A comma or a closing parenthesis: what may come after an item and its trivia. -/
def endsItem (c : Char) : Prop := c = ',' ∨ c = ')'

theorem item_complete {t i t' rest : List Char} {n : ExportedName} {c : Char} (ht : Trivia t)
    (hi : Item i n) (ht' : Trivia t') (hc : endsItem c) :
    item (t ++ i ++ t' ++ c :: rest) = .ok (n, c :: rest) := by
  have hsolid : Solid (c :: rest) := by
    rcases hc with rfl | rfl
    · exact solid_cons _ (by decide) (by decide) (by decide)
    · exact solid_cons _ (by decide) (by decide) (by decide)
  -- Neither trivia nor what ends an item could continue a name or open a group.
  have hnext : ∀ d ∈ (t' ++ c :: rest).head?, isIdentifierChar d = false ∧ d ≠ '(' := by
    intro d hd
    cases htc : t' with
    | nil =>
        rw [htc] at hd
        obtain rfl := Option.mem_some.mp hd
        rcases hc with rfl | rfl <;> decide
    | cons e tail =>
        rw [htc] at hd
        obtain rfl := Option.mem_some.mp hd
        rcases ht'.head e (by rw [htc]; rfl) with hb | rfl | rfl
        · refine ⟨isIdentifierChar_of_isBlank hb, ?_⟩
          rintro rfl
          exact absurd hb (by decide)
        · decide
        · decide
  have hbare : bareItem (i ++ (t' ++ c :: rest)) = .ok (n, t' ++ c :: rest) := by
    refine bareItem_complete hi (fun d hd => (hnext d hd).1) fun hd => ?_
    exact (hnext '(' hd).2 rfl
  rw [item, List.append_assoc, List.append_assoc, skipTrivia_append ht,
    skipTrivia_of_solid (hi.solid _), hbare]
  simp only [Except.map, skipTrivia_append ht', skipTrivia_of_solid hsolid]

theorem items_complete {e : List Char} {ns : List ExportedName} (h : ItemList e ns)
    (body : List Char) : items (e ++ ')' :: body) = .ok (ns, ')' :: body) := by
  induction h with
  | one ht hi ht' =>
      rw [items_eq, item_complete ht hi ht' (Or.inr rfl)]
      rfl
  | @more t i t' e n ns ht hi ht' _ ih =>
      have happ : t ++ i ++ t' ++ ',' :: e ++ ')' :: body =
          t ++ i ++ t' ++ ',' :: (e ++ ')' :: body) := by simp
      rw [happ, items_eq, item_complete ht hi ht' (Or.inl rfl)]
      simp only [ih, Except.map]

/-- The trivia before the first item, and a list that starts with the item itself. -/
theorem ItemList.split_trivia {e : List Char} {ns : List ExportedName} (h : ItemList e ns) :
    ∃ t i tail n, e = t ++ (i ++ tail) ∧ Trivia t ∧ Item i n ∧ ItemList (i ++ tail) ns := by
  cases h with
  | @one t i t' n ht hi ht' =>
      exact ⟨t, i, t', n, by simp, ht, hi, by simpa using ItemList.one .nil hi ht'⟩
  | @more t i t' e n ns ht hi ht' he =>
      exact ⟨t, i, t' ++ ',' :: e, n, by simp, ht, hi, by simpa using ItemList.more .nil hi ht' he⟩

theorem exportSpec_complete {e : List Char} {spec : ExportSpec} (h : Exposes e spec)
    (body : List Char) : exportSpec (e ++ ')' :: body) = .ok (spec, ')' :: body) := by
  have hclose : Solid (')' :: body) := solid_cons _ (by decide) (by decide) (by decide)
  cases h with
  | @all t t' ht ht' =>
      have hdots : Solid ('.' :: '.' :: (t' ++ ')' :: body)) :=
        solid_cons _ (by decide) (by decide) (by decide)
      have happ : t ++ ['.', '.'] ++ t' ++ ')' :: body =
          t ++ '.' :: '.' :: (t' ++ ')' :: body) := by simp
      rw [happ, exportSpec, skipTrivia_append ht, skipTrivia_of_solid hdots]
      simp only [skipTrivia_append ht', skipTrivia_of_solid hclose]
  | nothing ht =>
      rw [exportSpec, skipTrivia_append ht, skipTrivia_of_solid hclose]
      rfl
  | items hl =>
      obtain ⟨t, i, tail, n, rfl, ht, hi, hl⟩ := hl.split_trivia
      have hread := items_complete hl body
      have hsolid := hi.solid (tail ++ ')' :: body)
      rw [List.append_assoc] at hread
      rw [exportSpec, List.append_assoc, skipTrivia_append ht, List.append_assoc,
        skipTrivia_of_solid hsolid]
      obtain ⟨c, i', rfl, hc⟩ := hi.head
      have hdot : c ≠ '.' := by
        rcases hc with rfl | hc
        · decide
        · exact ne_of_isIdentifierChar hc (by decide)
      have hparen : c ≠ ')' := by
        rcases hc with rfl | hc
        · decide
        · exact ne_of_isIdentifierChar hc (by decide)
      split
      · rename_i heq
        exact absurd (List.cons.inj heq).1 hdot
      · rename_i heq
        exact absurd (List.cons.inj heq).1 hparen
      · rw [hread]
        rfl

/-! ## The header as a whole -/

/-- A header that was read is one of the grammar, up to where the body starts. -/
theorem readHeader_sound {text : List Char} {header : Header} (h : readHeader text = .ok header) :
    ∃ e, text.drop e = header.body ∧ HeaderUpTo text e header.spec header.moduleName.toList := by
  unfold readHeader at h
  split at h
  · exact absurd h (by simp)
  · rename_i A afterModule hm
    split at h
    · exact absurd h (by simp)
    · rename_i B afterExposing he
      obtain ⟨S, tail, rfl, hS⟩ := exists_maximalRun isBlankOrComma afterExposing
      rw [hS.dropWhile_eq] at h
      split at h
      · rename_i inside
        split at h
        · exact absurd h (by simp)
        · rename_i spec body hspec
          obtain rfl := Except.ok.inj h
          obtain ⟨E, rfl, hE⟩ := exportSpec_sound hspec (by simp)
          have hdrop : text.drop (A.length + "module".toList.length) =
              B ++ "exposing".toList ++ (S ++ '(' :: (E ++ ')' :: body)) := by
            rw [append_of_cut hm, ← append_of_cut he, ← List.length_append, List.drop_left]
          obtain ⟨upTo, hupTo⟩ : ∃ upTo : List Char, upTo =
              A ++ "module".toList ++ B ++ "exposing".toList ++ S ++ ['('] ++ E ++ [')'] := ⟨_, rfl⟩
          have htext : text = upTo ++ body := by
            rw [append_of_cut hm, append_of_cut he, hupTo]
            simp
          refine ⟨upTo.length, by rw [htext, List.drop_left], by simp [htext], A, B, S, E, ?_,
            ⟨_, cut_eq_some_iff.mp hm⟩, ?_, hS.inside, ?_, hE⟩
          · rw [htext, List.take_left, hupTo]
          · rw [hdrop, ← append_of_cut he]
            exact ⟨_, cut_eq_some_iff.mp he⟩
          · rw [String.toList_ofList]
            exact collapse_eq_iff.mp rfl
        · exact absurd h (by simp)
      · exact absurd h (by simp)

theorem readHeader_complete {A B S E name body : List Char} {spec : ExportSpec}
    (hm : FirstIn "module".toList
      (A ++ "module".toList ++ (B ++ "exposing".toList ++ (S ++ '(' :: (E ++ ')' :: body)))) A)
    (he : FirstIn "exposing".toList
      (B ++ "exposing".toList ++ (S ++ '(' :: (E ++ ')' :: body))) B)
    (hS : ∀ c ∈ S, isBlankOrComma c = true) (hB : Collapses B name) (hE : Exposes E spec) :
    readHeader
        (A ++ "module".toList ++ (B ++ "exposing".toList ++ (S ++ '(' :: (E ++ ')' :: body)))) =
      .ok ⟨spec, String.ofList name, body⟩ := by
  have hrun : MaximalRun isBlankOrComma S ('(' :: (E ++ ')' :: body)) :=
    maximalRun_cons hS (by decide) _
  have hname : collapse B = name := collapse_eq_iff.mpr hB
  simp only [readHeader, cut_of_firstIn hm, cut_of_firstIn he, hrun.dropWhile_eq,
    exportSpec_complete hE body, hname]

/-- **The reader of headers accepts exactly its grammar**: it succeeds with a clause and a name
and stops at offset `e` if and only if the text is, up to `e`, a header for them. -/
theorem readHeader_eq_ok_iff (text : List Char) (spec : ExportSpec) (name : String) (e : Nat) :
    (e ≤ text.length ∧ readHeader text = .ok ⟨spec, name, text.drop e⟩) ↔
      HeaderUpTo text e spec name.toList := by
  constructor
  · rintro ⟨hle, h⟩
    obtain ⟨e', hdrop, hheader⟩ := readHeader_sound h
    have hlen := congrArg List.length hdrop
    simp only [List.length_drop] at hlen
    have hle' := hheader.1
    obtain rfl : e' = e := by omega
    exact hheader
  · rintro ⟨hle, A, B, S, E, htake, hm, he, hS, hB, hE⟩
    refine ⟨hle, ?_⟩
    obtain ⟨body, hbody⟩ : ∃ body, text.drop e = body := ⟨_, rfl⟩
    have htext : text = A ++ "module".toList ++
        (B ++ "exposing".toList ++ (S ++ '(' :: (E ++ ')' :: body))) := by
      have h := (List.take_append_drop e text).symm
      rw [htake, hbody] at h
      simpa using h
    rw [htext, ← List.length_append, List.drop_left] at he
    rw [htext] at hm
    rw [hbody, htext, readHeader_complete hm he hS hB hE, String.ofList_toList]

end SignatureSearch.Elm
