/-
# `Proofs.Elm.HeaderPrefix` — a header is determined by its own characters

The reader of a header searches the text that is left, and what it finds may lie
far behind the header.  Nothing of that matters:

    readHeader_of_take_eq    texts that agree up to the end of a header have
                             this header
    readHeader_take_error    a text that is cut off within a header has none

The second follows from the first: a header of the cut text would be one of the
whole text, and end too early.  Where no header is found, what is left at the
fault is always an end of the text (`isEnd_readHeader`), so that the offset of
the fault is a place in it.
-/
import SignatureSearch.Elm.Module
import SignatureSearch.Proofs.Elm.HeaderGrammar

namespace SignatureSearch.Elm

open Text

/-! ## Texts that agree up to the end of a header -/

/-- A header is read off any text that agrees with one of the grammar up to its end. -/
theorem readHeader_of_take_eq {text text' name : List Char} {e : Nat} {spec : ExportSpec}
    (h : HeaderUpTo text e spec name) (hsame : text'.take e = text.take e) :
    readHeader text' = .ok ⟨spec, String.ofList name, text'.drop e⟩ := by
  obtain ⟨-, A, B, S, E, htake, hm, he, hS, hB, hE⟩ := h
  generalize hbody : text.drop e = body at *
  generalize hbody' : text'.drop e = body'
  have htext : text = A ++ "module".toList ++
      (B ++ "exposing".toList ++ (S ++ '(' :: (E ++ ')' :: body))) := by
    have h := (List.take_append_drop e text).symm
    rw [htake, hbody] at h
    simpa using h
  have htext' : text' = A ++ "module".toList ++
      (B ++ "exposing".toList ++ (S ++ '(' :: (E ++ ')' :: body'))) := by
    have h := (List.take_append_drop e text').symm
    rw [hsame, htake, hbody'] at h
    simpa using h
  rw [htext, ← List.length_append, List.drop_left] at he
  rw [htext] at hm
  rw [htext']
  exact readHeader_complete (hm.append _) (he.append _) hS hB hE

/-! ## Where a reader stops -/

/-- What a reader leaves is an end of the text, whether it succeeds or not. -/
def IsEnd {α : Type} (cs : List Char) : Except Stuck (α × List Char) → Prop
  | .ok (_, rest) => rest <:+ cs
  | .error stuck => stuck.remaining <:+ cs

theorem IsEnd.of_suffix {α : Type} {cs cs' : List Char} {result : Except Stuck (α × List Char)}
    (h : IsEnd cs result) (hcs : cs <:+ cs') : IsEnd cs' result := by
  cases result with
  | ok found => exact h.trans hcs
  | error stuck => exact h.trans hcs

theorem IsEnd.map {α β : Type} {cs : List Char} {result : Except Stuck (α × List Char)}
    (h : IsEnd cs result) (f : α → β) {g : List Char → List Char} (hg : ∀ rest, g rest <:+ rest) :
    IsEnd cs (result.map fun (a, rest) => (f a, g rest)) := by
  cases result with
  | ok found => exact (hg found.2).trans h
  | error stuck => exact h

theorem skipTrivia_suffix (cs : List Char) : skipTrivia cs <:+ cs := by
  induction hn : cs.length using Nat.strong_induction_on generalizing cs with
  | _ n ih =>
      rw [skipTrivia_eq]
      split
      · exact List.dropWhile_suffix isBlank
      · rename_i text rest hc
        have happ := (append_of_comment? hc).1
        have hrest : rest <:+ cs :=
          (happ ▸ List.suffix_append text rest).trans (List.dropWhile_suffix isBlank)
        have hlt : rest.length < n := by
          have hle := (List.dropWhile_suffix (l := cs) isBlank).length_le
          have := length_of_comment? hc
          omega
        exact (ih _ hlt rest rfl).trans hrest

theorem isEnd_typeItem (name : String) (cs : List Char) : IsEnd cs (typeItem name cs) := by
  unfold typeItem
  split
  · rename_i inside
    split
    · rename_i rest hrest
      have hsuffix : ')' :: rest <:+ inside := hrest ▸ List.dropWhile_suffix isGroupChar
      exact (List.suffix_cons _ _).trans (hsuffix.trans (List.suffix_cons _ _))
    · exact List.suffix_refl _
  · exact List.suffix_refl _

theorem isEnd_bareItem (cs : List Char) : IsEnd cs (bareItem cs) := by
  cases hb : bareItem cs with
  | ok found =>
      obtain ⟨i, hi, -⟩ := bareItem_sound hb
      exact ⟨i, hi.symm⟩
  | error stuck =>
      have hafter : afterIdentifier cs <:+ cs := List.dropWhile_suffix isIdentifierChar
      unfold bareItem at hb
      split at hb
      · split at hb
        · exact absurd hb (by simp)
        · exact Except.error.inj hb ▸ List.suffix_refl _
      · dsimp only at hb
        split at hb
        · exact Except.error.inj hb ▸ List.suffix_refl _
        · split at hb
          · exact absurd hb (by simp)
          · exact hb ▸ (isEnd_typeItem _ _).of_suffix hafter

theorem isEnd_item (cs : List Char) : IsEnd cs (item cs) :=
  ((isEnd_bareItem _).map id skipTrivia_suffix).of_suffix (skipTrivia_suffix cs)

theorem isEnd_items (cs : List Char) : IsEnd cs (items cs) := by
  induction hn : cs.length using Nat.strong_induction_on generalizing cs with
  | _ n ih =>
      have hitem := isEnd_item cs
      rw [items_eq]
      split
      · rename_i hi
        rw [hi] at hitem
        exact hitem
      · rename_i name rest hi
        have hlt : rest.length < n := by
          have := length_of_item hi
          simp only [List.length_cons] at this
          omega
        have hcons : ',' :: rest <:+ cs := by
          rw [hi] at hitem
          exact hitem
        have hmore := (ih _ hlt rest rfl).map (name :: ·) (g := id) List.suffix_refl
        exact hmore.of_suffix ((List.suffix_cons _ _).trans hcons)
      · rename_i hi
        rw [hi] at hitem
        exact hitem

theorem isEnd_exportSpec (cs : List Char) : IsEnd cs (exportSpec cs) := by
  have hskip := skipTrivia_suffix cs
  unfold exportSpec
  split
  · rename_i rest hs
    rw [hs] at hskip
    have hrest : rest <:+ '.' :: '.' :: rest :=
      (List.suffix_cons _ _).trans (List.suffix_cons _ _)
    exact (skipTrivia_suffix rest).trans (hrest.trans hskip)
  · rename_i hs
    rw [hs] at hskip
    exact hskip
  · have hitems := (isEnd_items (skipTrivia cs)).map ExportSpec.list (g := id) List.suffix_refl
    exact hitems.of_suffix hskip

theorem isEnd_readHeader {text : List Char} {stuck : Stuck} (h : readHeader text = .error stuck) :
    stuck.remaining <:+ text := by
  unfold readHeader at h
  split at h
  · exact Except.error.inj h ▸ List.suffix_refl _
  · rename_i A afterModule hm
    have hmodule : afterModule <:+ text := ⟨_, (append_of_cut hm).symm⟩
    split at h
    · exact Except.error.inj h ▸ hmodule
    · rename_i B afterExposing he
      have hexposing : afterExposing <:+ afterModule := ⟨_, (append_of_cut he).symm⟩
      have hgap := (List.dropWhile_suffix isBlankOrComma).trans (hexposing.trans hmodule)
      split at h
      · rename_i inside hinside
        rw [hinside] at hgap
        have hend := (isEnd_exportSpec inside).of_suffix ((List.suffix_cons _ _).trans hgap)
        split at h
        · rename_i hspec
          rw [hspec] at hend
          exact Except.error.inj h ▸ hend
        · exact absurd h (by simp)
        · rename_i hspec
          rw [hspec] at hend
          exact Except.error.inj h ▸ hend
      · exact Except.error.inj h ▸ hgap

/-! ## Modules -/

/-- A module is read where a header is, and is this header with what its body declares. -/
theorem readModule_eq_ok_iff {text : List Char} {m : Module} :
    readModule text = .ok m ↔
      ∃ header, readHeader text = .ok header ∧
        m = ⟨header.spec, readBody header.body, header.moduleName⟩ := by
  rw [readModule]
  cases readHeader text with
  | error stuck => simp
  | ok header => simp [eq_comm]

/-- A fault has a place in the text: what is left starts there. -/
theorem readModule_eq_error {text : List Char} {stuck : Stuck}
    (h : readHeader text = .error stuck) :
    ∃ p ≤ text.length, text.drop p = stuck.remaining ∧ readModule text = .error ⟨stuck.fault, p⟩ := by
  have hend := isEnd_readHeader h
  refine ⟨text.length - stuck.remaining.length, Nat.sub_le _ _, ?_, by rw [readModule, h]⟩
  exact (List.suffix_iff_eq_drop.mp hend).symm

/-! ## Texts that are cut off -/

/-- A text that is cut off within its header has none: one that was found would be a header of the
whole text as well, and the whole text has only the longer one. -/
theorem readHeader_take_error {text name : List Char} {e k : Nat} {spec : ExportSpec}
    (h : HeaderUpTo text e spec name) (hk : k < e) :
    ∃ stuck, readHeader (text.take k) = .error stuck := by
  cases hread : readHeader (text.take k) with
  | error stuck => exact ⟨stuck, rfl⟩
  | ok header =>
      obtain ⟨e', -, hshort⟩ := readHeader_sound hread
      have hle : e' ≤ k := hshort.1.trans (List.length_take_le _ _)
      have hsame : text.take e' = (text.take k).take e' := by
        rw [List.take_take, Nat.min_eq_left hle]
      have hwhole := readHeader_of_take_eq h rfl
      rw [readHeader_of_take_eq hshort hsame] at hwhole
      have hlength := congrArg List.length (congrArg Header.body (Except.ok.inj hwhole))
      have hin := h.1
      simp only [List.length_drop] at hlength
      omega

/-- **A header is determined by its own characters.**  If a text is a module whose header ends at
offset `e`, then every text with the same first `e` characters is one with the same exposing clause,
name and end of the header; and a text that is cut off before `e` is none, with a fault at a place
in what is left of it. -/
theorem readModule_header {text : List Char} {m : Module} (hm : readModule text = .ok m) :
    ∃ e, HeaderUpTo text e m.spec m.name.toList ∧
      (∀ text' : List Char, text'.take e = text.take e →
        e ≤ text'.length ∧ readHeader text' = .ok ⟨m.spec, m.name, text'.drop e⟩ ∧
          ∃ m', readModule text' = .ok m' ∧ m'.spec = m.spec ∧ m'.name = m.name) ∧
      ∀ k < e, ∃ fault, ∃ p ≤ k,
        readModule (text.take k) = .error ⟨fault, p⟩ ∧
          readHeader (text.take k) = .error ⟨fault, (text.take k).drop p⟩ := by
  obtain ⟨header, hread, rfl⟩ := readModule_eq_ok_iff.mp hm
  obtain ⟨e, -, hheader⟩ := readHeader_sound hread
  refine ⟨e, hheader, fun text' hsame => ?_, fun k hk => ?_⟩
  · have hle : e ≤ text'.length := by
      have hlength := congrArg List.length hsame
      simp only [List.length_take, Nat.min_eq_left hheader.1] at hlength
      omega
    have hread' := readHeader_of_take_eq hheader hsame
    rw [String.ofList_toList] at hread'
    exact ⟨hle, hread', _, readModule_eq_ok_iff.mpr ⟨_, hread', rfl⟩, rfl, rfl⟩
  · obtain ⟨stuck, hstuck⟩ := readHeader_take_error hheader hk
    obtain ⟨p, hp, hdrop, herror⟩ := readModule_eq_error hstuck
    refine ⟨stuck.fault, p, hp.trans (List.length_take_le _ _), herror, ?_⟩
    rw [hdrop, hstuck]

/-- A header with a comment in the list: the body may be another one, and a text that is cut off
within the comment is no module. -/
theorem readModule_header_sample :
    let header := "module A exposing (f \x7b- , -\x7d , T(..))".toList
    readModule (header ++ "\n-- c".toList) =
        .ok ⟨.list [.function "f" none, .type "T" (some "..")], [.comment "-- c"], "A"⟩ ∧
      (∃ m', readModule (header ++ "\nf : Int".toList) = .ok m' ∧ m'.name = "A") ∧
      ∃ fault, ∃ p ≤ 24, readModule (header.take 24) = .error ⟨fault, p⟩ := by
  intro header
  have hm : readModule (header ++ "\n-- c".toList) =
      .ok ⟨.list [.function "f" none, .type "T" (some "..")], [.comment "-- c"], "A"⟩ := by
    decide +kernel
  obtain ⟨e, hheader, hsame, hcut⟩ := readModule_header hm
  -- The end of the header is where the body starts that is read.
  have he : e = header.length := by
    have hread : readHeader (header ++ "\n-- c".toList) =
        .ok ⟨.list [.function "f" none, .type "T" (some "..")], "A", "\n-- c".toList⟩ := by
      decide +kernel
    have hbody := congrArg List.length
      (congrArg Header.body (Except.ok.inj ((hsame _ rfl).2.1.symm.trans hread)))
    have hin := hheader.1
    simp only [List.length_drop, List.length_append] at hbody hin
    omega
  subst he
  obtain ⟨-, -, m', hm', -, hname⟩ := hsame (header ++ "\nf : Int".toList) (by simp)
  obtain ⟨fault, p, hp, herror, -⟩ := hcut 24 (by decide)
  exact ⟨hm, ⟨m', hm', hname⟩, fault, p, hp, herror⟩

end SignatureSearch.Elm
