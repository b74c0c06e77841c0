/-
# `Proofs.Elm.Tiling` — the body of a module is tiled by its pieces

After the header a text is cut into consecutive segments

    h = p₀ < p₁ < … < pₙ = length of the text

without gap or overlap, and the declarations of the module are those of the
segments, the ignored characters left out.  Each segment is fixed by its start:
of the rules below the first that applies decides.

1. `CommentRule`: a comment, kept as it is written;
2. `FunctionRule`, where a line starts: a name, a colon and a signature, up to
   and including the first place where the name stands alone again;
3. `TypeRule`, where a line starts: from the word `type` to the line break
   before the next line that does not start with a blank;
4. one character, which is ignored.

The rules are relations on texts; each is met exactly by what its reader finds
(`commentPiece?_eq_some_iff`, `functionPiece?_eq_some_iff`,
`typePiece?_eq_some_iff`), and so is the choice among them
(`firstRule_iff`).  A tiling is a run of steps by the first rule, and there is
one tiling only (`tiling_iff`).
-/
import SignatureSearch.Elm.Body
import SignatureSearch.Elm.Module
import SignatureSearch.Proofs.Elm.HeaderGrammar

namespace SignatureSearch.Elm

open Text

/-! ## Rule 1: comments -/

/-- A comment, kept as it is written. -/
inductive CommentRule : List Char → Piece → Prop
  | intro {text rest : List Char} : CommentBefore rest text →
      CommentRule (text ++ rest) ⟨.comment (String.ofList text), text, rest⟩

theorem commentPiece?_eq_some_iff {cs : List Char} {p : Piece} :
    commentPiece? cs = some p ↔ CommentRule cs p := by
  rw [commentPiece?, Option.map_eq_some_iff]
  constructor
  · rintro ⟨⟨text, rest⟩, hc, rfl⟩
    obtain ⟨rfl, hbefore⟩ := comment?_eq_some_iff.mp hc
    exact .intro hbefore
  · rintro ⟨hc⟩
    exact ⟨_, comment?_eq_some_iff.mpr ⟨rfl, hc⟩, rfl⟩

/-! ## Rule 2: functions -/

/-- Whether an identifier character comes right before a place, `before` being the text from
where it is looked at and `inside` the answer at its start. -/
def followsIdentifier (inside : Bool) (before : List Char) : Bool :=
  (before.getLast?.map isIdentifierChar).getD inside

/-- At this place `name` stands, next to no identifier character. -/
def AloneAt (name : List Char) (inside : Bool) (before after : List Char) : Prop :=
  ∃ rest, after = name ++ rest ∧ followsIdentifier inside before = false ∧
    startsIdentifier rest = false

theorem followsIdentifier_cons (inside : Bool) (c : Char) (before : List Char) :
    followsIdentifier inside (c :: before) = followsIdentifier (isIdentifierChar c) before := by
  rw [followsIdentifier, followsIdentifier, List.getLast?_cons]
  cases before.getLast? <;> rfl

theorem aloneAt_cons (name : List Char) (inside : Bool) (c : Char) :
    (fun before after => AloneAt name inside (c :: before) after) =
      AloneAt name (isIdentifierChar c) := by
  funext before after
  rw [AloneAt, AloneAt, followsIdentifier_cons]

theorem afterAlone?_eq_some_iff {name cs rest : List Char} {inside : Bool} :
    afterAlone? name inside cs = some rest ↔
      cs = name ++ rest ∧ inside = false ∧ startsIdentifier rest = false := by
  cases inside with
  | true => simp [afterAlone?]
  | false =>
      rw [afterAlone?, if_neg Bool.false_ne_true, Option.filter_eq_some_iff,
        List.isPrefixOf?_eq_some_iff_append_eq, eq_comm]
      simp

theorem afterAlone?_eq_none_iff {name cs : List Char} {inside : Bool} :
    afterAlone? name inside cs = none ↔ ¬ AloneAt name inside [] cs := by
  rw [Option.eq_none_iff_forall_ne_some]
  constructor
  · rintro h ⟨rest, hcs, hi, hs⟩
    exact h rest (afterAlone?_eq_some_iff.mpr ⟨hcs, hi, hs⟩)
  · intro h rest hr
    exact h ⟨rest, afterAlone?_eq_some_iff.mp hr⟩

theorem cutAlone_eq_some_iff {name : List Char} (hne : name ≠ []) {cs : List Char} :
    ∀ {inside : Bool} {before rest : List Char},
      cutAlone name inside cs = some (before, rest) ↔
        FirstPlace (AloneAt name inside) cs before (name ++ rest) := by
  induction cs with
  | nil =>
      intro inside before rest
      constructor
      · intro h
        exact absurd h (by simp [cutAlone])
      · intro h
        have hs := h.split
        simp [hne] at hs
  | cons c cs ih =>
      intro inside before rest
      rw [cutAlone]
      cases ha : afterAlone? name inside (c :: cs) with
      | some tail =>
          obtain ⟨hcs, hi, hs⟩ := afterAlone?_eq_some_iff.mp ha
          have hfirst : FirstPlace (AloneAt name inside) (c :: cs) [] (name ++ tail) :=
            firstPlace_nil_iff.mpr ⟨hcs.symm, tail, hcs, hi, hs⟩
          constructor
          · intro h
            obtain ⟨rfl, rfl⟩ := Prod.mk.inj (Option.some.inj h)
            exact hfirst
          · intro h
            obtain ⟨rfl, hr⟩ := hfirst.unique h
            rw [List.append_cancel_left hr]
      | none =>
          have hno := afterAlone?_eq_none_iff.mp ha
          rw [Option.map_eq_some_iff]
          constructor
          · rintro ⟨⟨b, r⟩, hb, heq⟩
            obtain ⟨rfl, rfl⟩ := Prod.mk.inj heq
            refine firstPlace_cons_iff.mpr ⟨rfl, hno, ?_⟩
            rw [aloneAt_cons]
            exact ih.mp hb
          · intro h
            cases before with
            | nil => exact absurd (firstPlace_nil_iff.mp h).2 hno
            | cons d b =>
                obtain ⟨rfl, _, h⟩ := firstPlace_cons_iff.mp h
                rw [aloneAt_cons] at h
                exact ⟨(b, rest), ih.mpr h, rfl⟩

/-- A function: its name, a colon that no other follows, and a signature that ends where the name
stands alone for the first time.  What separates them is taken as far as it goes. -/
inductive FunctionRule : List Char → Piece → Prop
  | intro {name gap gap' signature rest : List Char} :
      IsName .function name →
      MaximalRun isIdentifierChar name (gap ++ ':' :: (gap' ++ (signature ++ (name ++ rest)))) →
      MaximalRun isBlankOrComma gap (':' :: (gap' ++ (signature ++ (name ++ rest)))) →
      (gap' ++ (signature ++ (name ++ rest))).head? ≠ some ':' →
      MaximalRun isBlankOrComma gap' (signature ++ (name ++ rest)) →
      FirstPlace (AloneAt name false) (signature ++ (name ++ rest)) signature (name ++ rest) →
      FunctionRule (name ++ gap ++ [':'] ++ gap' ++ signature ++ name ++ rest)
        { declaration := .function (String.ofList name) (some (Signature.terms signature))
          text := name ++ gap ++ [':'] ++ gap' ++ signature ++ name
          rest }

theorem functionPiece?_eq_some_iff {cs : List Char} {p : Piece} :
    functionPiece? cs = some p ↔ FunctionRule cs p := by
  constructor
  · intro h
    obtain ⟨name, tail, rfl, hname⟩ := exists_maximalRun isIdentifierChar cs
    obtain ⟨hid, haf⟩ := identifier_append_of_stop hname.inside hname.stops
    obtain ⟨gap, tail, rfl, hgap⟩ := exists_maximalRun isBlankOrComma tail
    simp only [functionPiece?, hid, haf, hgap.takeWhile_eq, hgap.dropWhile_eq] at h
    split at h
    · exact absurd h (by simp)
    · rename_i hn
      have hn : name ≠ [] ∧ NameKind.ofName name = .function := by simpa using hn
      split at h
      · rename_i afterColon
        obtain ⟨gap', tail, rfl, hgap'⟩ := exists_maximalRun isBlankOrComma afterColon
        rw [hgap'.takeWhile_eq, hgap'.dropWhile_eq] at h
        split at h
        · exact absurd h (by simp)
        · rename_i hcolon
          split at h
          · exact absurd h (by simp)
          · rename_i signature rest hcut
            have hfirst := (cutAlone_eq_some_iff hn.1).mp hcut
            obtain rfl := hfirst.split
            obtain rfl := Option.some.inj h
            have hrule := FunctionRule.intro ⟨hn.1, hname.inside, hn.2⟩ hname hgap
              (by simpa using hcolon) hgap' hfirst
            simpa using hrule
      · exact absurd h (by simp)
  · rintro ⟨hn, hname, hgap, hcolon, hgap', hfirst⟩
    rename_i name gap gap' signature rest
    have happ : name ++ gap ++ [':'] ++ gap' ++ signature ++ name ++ rest =
        name ++ (gap ++ ':' :: (gap' ++ (signature ++ (name ++ rest)))) := by simp
    obtain ⟨hid, haf⟩ := identifier_append_of_stop hname.inside hname.stops
    have hemp : name.isEmpty = false := by simpa using hn.ne_nil
    have hcut := (cutAlone_eq_some_iff hn.ne_nil).mpr hfirst
    have hsingle : ((gap' ++ (signature ++ (name ++ rest))).head? == some ':') = false := by
      simpa only [beq_eq_false_iff_ne] using hcolon
    rw [happ]
    simp only [functionPiece?, hid, haf, hgap.takeWhile_eq, hgap.dropWhile_eq, hgap'.takeWhile_eq,
      hgap'.dropWhile_eq, hn.kind_eq, hemp, hsingle, hcut]
    rfl

/-! ## Rule 3: types -/

/-- A top-level line ends here: the text is over, or a line break comes before a line that does
not start with a blank. -/
def LineEnds (after : List Char) : Prop :=
  after = [] ∨ ∃ next, after = '\n' :: next ∧ startsBlank next = false

theorem topLevel_spec (cs : List Char) :
    FirstPlace (fun _ after => LineEnds after) cs (topLevel cs).1 (topLevel cs).2 := by
  induction cs with
  | nil => exact firstPlace_nil_iff.mpr ⟨rfl, Or.inl rfl⟩
  | cons c cs ih =>
      rw [topLevel]
      split
      · rename_i h
        have h : c = '\n' ∧ startsBlank cs = false := by simpa using h
        exact firstPlace_nil_iff.mpr ⟨rfl, Or.inr ⟨cs, by rw [h.1], h.2⟩⟩
      · rename_i h
        have hno : ¬ LineEnds (c :: cs) := by
          rintro (h' | ⟨next, h', hb⟩)
          · exact absurd h' (by simp)
          · obtain ⟨rfl, rfl⟩ := List.cons.inj h'
            exact h (by simp [hb])
        exact (firstPlace_cons_after hno).mpr ih

/-- The definition that a text after the name of a type gives: its words with single spaces, none
if it has no words. -/
def DefinitionOf (text : List Char) (definition : Option String) : Prop :=
  ∃ ws, Words text ws ∧
    definition = if ws = [] then none else some (String.ofList ([' '].intercalate ws))

theorem definition?_eq_iff {text : List Char} {definition : Option String} :
    definition? text = definition ↔ DefinitionOf text definition := by
  have hempty : (collapse text).isEmpty = true ↔ words text = [] := by
    rw [collapse, List.isEmpty_iff]
    cases hw : words text with
    | nil => simp
    | cons w ws =>
        have hne : w ≠ [] := (words_eq_iff.mp hw).ne_nil w List.mem_cons_self
        cases ws <;> simp [List.intercalate, hne]
  have hvalue : definition? text =
      if words text = [] then none else some (String.ofList ([' '].intercalate (words text))) := by
    rw [definition?, ← collapse]
    by_cases hw : words text = []
    · rw [if_pos hw]
      simp [hempty.mpr hw]
    · rw [if_neg hw]
      simp [mt hempty.mp hw]
  constructor
  · rintro rfl
    exact ⟨words text, words_spec text, hvalue⟩
  · rintro ⟨ws, hws, rfl⟩
    rw [hvalue, words_eq_iff.mpr hws]

/-- The word `alias` with the blanks after it, or nothing, before the name in `named`. -/
inductive AliasWord (named : List Char) : List Char → Bool → Prop
  | absent : AliasWord named [] false
  | present {gap : List Char} : gap ≠ [] → MaximalRun isBlank gap named →
      AliasWord named ("alias".toList ++ gap) true

/-- A type: the word `type`, perhaps the word `alias`, a name, and what follows it up to the end
of the top-level line. -/
inductive TypeRule : List Char → Piece → Prop
  | intro {gap word name text rest : List Char} {isAlias : Bool} {definition : Option String} :
      gap ≠ [] → MaximalRun isBlank gap (word ++ (name ++ (text ++ rest))) →
      AliasWord (name ++ (text ++ rest)) word isAlias →
      IsName .type name → MaximalRun isIdentifierChar name (text ++ rest) →
      FirstPlace (fun _ after => LineEnds after) (text ++ rest) text rest →
      DefinitionOf text definition →
      TypeRule ("type".toList ++ gap ++ word ++ name ++ text ++ rest)
        { declaration := .type (String.ofList name) definition isAlias
          text := "type".toList ++ gap ++ word ++ name ++ text
          rest }

theorem startsBlank_eq_true_iff {cs : List Char} :
    startsBlank cs = true ↔ ∃ gap rest, cs = gap ++ rest ∧ gap ≠ [] ∧ MaximalRun isBlank gap rest := by
  constructor
  · intro h
    obtain ⟨gap, rest, rfl, hgap⟩ := exists_maximalRun isBlank cs
    refine ⟨gap, rest, rfl, ?_, hgap⟩
    rintro rfl
    cases rest with
    | nil => exact absurd h (by simp [startsBlank])
    | cons c rest =>
        have hc : isBlank c = true := h
        rw [hgap.stops c rfl] at hc
        exact Bool.noConfusion hc
  · rintro ⟨gap, rest, rfl, hne, hgap⟩
    obtain ⟨c, tail, rfl⟩ := List.exists_cons_of_ne_nil hne
    exact hgap.inside c List.mem_cons_self

theorem aliasWord?_of_present {gap named : List Char} (hne : gap ≠ [])
    (hgap : MaximalRun isBlank gap named) :
    aliasWord? ("alias".toList ++ (gap ++ named)) = some ("alias".toList ++ gap, named) := by
  have hb : startsBlank (gap ++ named) = true :=
    startsBlank_eq_true_iff.mpr ⟨gap, named, rfl, hne, hgap⟩
  rw [aliasWord?, isPrefixOf?_append]
  simp only [hb, if_true, hgap.takeWhile_eq, hgap.dropWhile_eq]

/-- The name of a type does not start like the word `alias`, whose first letter is lowercase. -/
theorem aliasWord?_of_name {name : List Char} (hn : IsName .type name) (rest : List Char) :
    aliasWord? (name ++ rest) = none := by
  have hp : ¬ "alias".toList <+: name ++ rest := by
    intro hp
    obtain ⟨c, tail, rfl⟩ := List.exists_cons_of_ne_nil hn.ne_nil
    obtain rfl : 'a' = c := (List.cons_prefix_cons.mp hp).1
    exact absurd hn.kind_eq (by simp [NameKind.ofName, show isLowercase 'a' = true by decide])
  rw [aliasWord?, isPrefixOf?_eq_none_iff.mpr hp]

/-- What stands before the name of a type is the word `alias` or nothing. -/
theorem exists_aliasWord (cs : List Char) :
    ∃ word named, (aliasWord? cs).getD ([], cs) = (word, named) ∧ cs = word ++ named ∧
      AliasWord named word (aliasWord? cs).isSome := by
  cases h : aliasWord? cs with
  | none => exact ⟨[], cs, rfl, rfl, .absent⟩
  | some found =>
      obtain ⟨word, named⟩ := found
      refine ⟨word, named, rfl, append_of_aliasWord? h, ?_⟩
      rw [aliasWord?] at h
      split at h
      · rename_i rest hp
        split at h
        · rename_i hb
          obtain ⟨gap, tail, rfl, hne, hgap⟩ := startsBlank_eq_true_iff.mp hb
          rw [hgap.takeWhile_eq, hgap.dropWhile_eq] at h
          obtain ⟨rfl, rfl⟩ := Prod.mk.inj (Option.some.inj h)
          exact .present hne hgap
        · exact absurd h (by simp)
      · exact absurd h (by simp)

theorem aliasWord?_eq {named word name rest : List Char} {isAlias : Bool}
    (h : AliasWord named word isAlias) (hnamed : named = name ++ rest) (hn : IsName .type name) :
    (aliasWord? (word ++ named)).getD ([], word ++ named) = (word, named) ∧
      (aliasWord? (word ++ named)).isSome = isAlias := by
  cases h with
  | absent =>
      rw [List.nil_append, hnamed, aliasWord?_of_name hn]
      exact ⟨rfl, rfl⟩
  | present hne hgap =>
      rw [List.append_assoc, aliasWord?_of_present hne hgap]
      exact ⟨rfl, rfl⟩

theorem typePiece?_eq_some_iff {cs : List Char} {p : Piece} :
    typePiece? cs = some p ↔ TypeRule cs p := by
  constructor
  · intro h
    rw [typePiece?] at h
    split at h
    · exact absurd h (by simp)
    · rename_i afterWord hw
      split at h
      · exact absurd h (by simp)
      · rename_i hb
        obtain ⟨gap, tail, rfl, hne, hgap⟩ :=
          startsBlank_eq_true_iff.mp (by simpa using hb : startsBlank afterWord = true)
        obtain ⟨word, named, hget, htail, halias⟩ := exists_aliasWord tail
        obtain ⟨name, after, rfl, hname⟩ := exists_maximalRun isIdentifierChar named
        obtain ⟨hid, haf⟩ := identifier_append_of_stop hname.inside hname.stops
        simp only [hgap.takeWhile_eq, hgap.dropWhile_eq, hget, hid, haf] at h
        split at h
        · exact absurd h (by simp)
        · rename_i hn
          have hn : name ≠ [] ∧ NameKind.ofName name = .type := by simpa using hn
          obtain rfl := Option.some.inj h
          have hfirst := topLevel_spec after
          have hafter := append_topLevel after
          have hdef := definition?_eq_iff.mp (rfl : definition? (topLevel after).1 = _)
          have hcs : cs = "type".toList ++ gap ++ word ++ name ++ (topLevel after).1 ++
              (topLevel after).2 := by
            rw [append_of_isPrefixOf? hw, htail, List.append_assoc _ (topLevel after).1, hafter]
            simp
          rw [hcs]
          refine .intro hne ?_ ?_ ⟨hn.1, hname.inside, hn.2⟩ ?_ ?_ hdef
          · rwa [hafter, ← htail]
          · rwa [hafter]
          · rwa [hafter]
          · rwa [hafter]
  · rintro ⟨hne, hgap, halias, hn, hname, hfirst, hdef⟩
    rename_i gap word name text rest isAlias definition
    have happ : "type".toList ++ gap ++ word ++ name ++ text ++ rest =
        "type".toList ++ (gap ++ (word ++ (name ++ (text ++ rest)))) := by simp
    have hb : startsBlank (gap ++ (word ++ (name ++ (text ++ rest)))) = true :=
      startsBlank_eq_true_iff.mpr ⟨gap, _, rfl, hne, hgap⟩
    obtain ⟨hget, hsome⟩ := aliasWord?_eq halias rfl hn
    obtain ⟨hid, haf⟩ := identifier_append_of_stop hname.inside hname.stops
    have hemp : name.isEmpty = false := by simpa using hn.ne_nil
    obtain ⟨htext, hrest⟩ := (topLevel_spec (text ++ rest)).unique hfirst
    rw [happ, typePiece?, isPrefixOf?_append]
    simp only [hb, hgap.takeWhile_eq, hgap.dropWhile_eq, hget, hsome, hid, haf, hemp, hn.kind_eq,
      htext, hrest, definition?_eq_iff.mpr hdef]
    rfl

/-! ## The first rule that applies -/

/-- The piece that a text starts with, by the first rule that applies. -/
inductive FirstRule (lineStart : Prop) : List Char → Piece → Prop
  | comment {cs : List Char} {p : Piece} : CommentRule cs p → FirstRule lineStart cs p
  | function {cs : List Char} {p : Piece} :
      (∀ q, ¬ CommentRule cs q) → lineStart → FunctionRule cs p → FirstRule lineStart cs p
  | type {cs : List Char} {p : Piece} :
      (∀ q, ¬ CommentRule cs q) → lineStart → (∀ q, ¬ FunctionRule cs q) → TypeRule cs p →
      FirstRule lineStart cs p
  | character {c : Char} {cs : List Char} :
      (∀ q, ¬ CommentRule (c :: cs) q) →
      (lineStart → ∀ q, ¬ FunctionRule (c :: cs) q ∧ ¬ TypeRule (c :: cs) q) →
      FirstRule lineStart (c :: cs) ⟨.ignore, [c], cs⟩

theorem commentPiece?_eq_none_iff {cs : List Char} :
    commentPiece? cs = none ↔ ∀ q, ¬ CommentRule cs q := by
  simp only [Option.eq_none_iff_forall_ne_some, ne_eq, commentPiece?_eq_some_iff]

theorem functionPiece?_eq_none_iff {cs : List Char} :
    functionPiece? cs = none ↔ ∀ q, ¬ FunctionRule cs q := by
  simp only [Option.eq_none_iff_forall_ne_some, ne_eq, functionPiece?_eq_some_iff]

theorem typePiece?_eq_none_iff {cs : List Char} :
    typePiece? cs = none ↔ ∀ q, ¬ TypeRule cs q := by
  simp only [Option.eq_none_iff_forall_ne_some, ne_eq, typePiece?_eq_some_iff]

theorem nextPiece_of_firstRule {lineStart : Bool} {c : Char} {cs : List Char} {p : Piece}
    (h : FirstRule (lineStart = true) (c :: cs) p) : nextPiece lineStart c cs = p := by
  cases h with
  | comment hp =>
      rw [nextPiece, piece?, commentPiece?_eq_some_iff.mpr hp]
      rfl
  | function hc hl hp =>
      rw [nextPiece, piece?, commentPiece?_eq_none_iff.mpr hc, hl,
        functionPiece?_eq_some_iff.mpr hp]
      rfl
  | type hc hl hf hp =>
      rw [nextPiece, piece?, commentPiece?_eq_none_iff.mpr hc, hl,
        functionPiece?_eq_none_iff.mpr hf, typePiece?_eq_some_iff.mpr hp]
      rfl
  | character hc hno =>
      rw [nextPiece, piece?, commentPiece?_eq_none_iff.mpr hc]
      cases lineStart with
      | false => rfl
      | true =>
          rw [functionPiece?_eq_none_iff.mpr fun q => (hno rfl q).1,
            typePiece?_eq_none_iff.mpr fun q => (hno rfl q).2]
          rfl

theorem exists_firstRule (lineStart : Prop) (c : Char) (cs : List Char) :
    ∃ p, FirstRule lineStart (c :: cs) p := by
  by_cases hc : ∃ q, CommentRule (c :: cs) q
  · obtain ⟨q, hq⟩ := hc
    exact ⟨q, .comment hq⟩
  have hc := not_exists.mp hc
  by_cases hl : lineStart
  · by_cases hf : ∃ q, FunctionRule (c :: cs) q
    · obtain ⟨q, hq⟩ := hf
      exact ⟨q, .function hc hl hq⟩
    have hf := not_exists.mp hf
    by_cases ht : ∃ q, TypeRule (c :: cs) q
    · obtain ⟨q, hq⟩ := ht
      exact ⟨q, .type hc hl hf hq⟩
    exact ⟨_, .character hc fun _ q => ⟨hf q, not_exists.mp ht q⟩⟩
  · exact ⟨_, .character hc fun h => absurd h hl⟩

/-- The first rule that applies is the one the reader follows. -/
theorem firstRule_iff {lineStart : Bool} {c : Char} {cs : List Char} {p : Piece} :
    FirstRule (lineStart = true) (c :: cs) p ↔ nextPiece lineStart c cs = p := by
  constructor
  · exact nextPiece_of_firstRule
  · rintro rfl
    obtain ⟨p, hp⟩ := exists_firstRule (lineStart = true) c cs
    rwa [nextPiece_of_firstRule hp]

/-! ## Tilings -/

/-- A part of a text, from one offset up to another, and what it declares. -/
structure Segment where
  start : Nat
  stop : Nat
  declaration : Declaration
deriving DecidableEq, Repr

/-- A line starts at an offset: the character before it is a line break. -/
def LineStart (text : List Char) (p : Nat) : Prop :=
  ∃ q, p = q + 1 ∧ text[q]? = some '\n'

/-- Consecutive segments from an offset on to the end of the text, none of them empty, each by
the first rule that applies where it starts. -/
inductive Tiling (text : List Char) : Nat → List Segment → Prop
  | done : Tiling text text.length []
  | step {p q : Nat} {piece : Piece} {segments : List Segment} :
      p < q → q ≤ text.length →
      FirstRule (LineStart text p) (text.drop p) piece → piece.text = (text.take q).drop p →
      Tiling text q segments →
      Tiling text p (⟨p, q, piece.declaration⟩ :: segments)

/-- The segments of some pieces, from an offset on. -/
def segmentsFrom (start : Nat) : List Piece → List Segment
  | [] => []
  | p :: ps =>
      ⟨start, start + p.text.length, p.declaration⟩ :: segmentsFrom (start + p.text.length) ps

theorem map_declaration_segmentsFrom (ps : List Piece) : ∀ start : Nat,
    (segmentsFrom start ps).map (·.declaration) = ps.map (·.declaration) := by
  induction ps with
  | nil => intro _; rfl
  | cons p ps ih => intro start; rw [segmentsFrom, List.map_cons, ih]; rfl

theorem lineStart_iff {before cs : List Char} {last : Char} (hl : before.getLast? = some last) :
    LineStart (before ++ cs) before.length ↔ last = '\n' := by
  obtain ⟨front, rfl⟩ := List.getLast?_eq_some_iff.mp hl
  have hget : (front ++ [last] ++ cs)[front.length]? = some last := by simp
  constructor
  · rintro ⟨q, hq, hnl⟩
    obtain rfl : front.length = q := by simpa using hq
    rw [hget] at hnl
    exact Option.some.inj hnl
  · rintro rfl
    exact ⟨front.length, by simp, hget⟩

theorem getLast?_append_of_ne_nil {before piece : List Char} (hne : piece ≠ []) (last : Char) :
    (before ++ piece).getLast? = some (piece.getLast?.getD last) := by
  rw [List.getLast?_append, List.getLast?_eq_some_getLast hne]
  rfl

/-- A tiling that does not start at the end of the text starts with a segment. -/
theorem tiling_cons_iff {text : List Char} {p : Nat} {segs : List Segment} (hp : p < text.length) :
    Tiling text p segs ↔
      ∃ piece rest, FirstRule (LineStart text p) (text.drop p) piece ∧ piece.text ≠ [] ∧
        piece.text <+: text.drop p ∧ Tiling text (p + piece.text.length) rest ∧
        segs = ⟨p, p + piece.text.length, piece.declaration⟩ :: rest := by
  constructor
  · intro h
    cases h with
    | done => exact absurd hp (Nat.lt_irrefl _)
    | @step _ q piece rest hlt hle hrule htext hrest =>
        have hlen : piece.text.length = q - p := by
          rw [htext, List.length_drop, List.length_take, Nat.min_eq_left hle]
        obtain rfl : q = p + piece.text.length := by omega
        refine ⟨piece, rest, hrule, ?_, ?_, hrest, rfl⟩
        · rw [← List.length_pos_iff]
          omega
        · rw [htext, List.drop_take]
          exact List.take_prefix _ _
  · rintro ⟨piece, rest, hrule, hne, hpre, hrest, rfl⟩
    have hpos := List.length_pos_iff.mpr hne
    have hlen := hpre.length_le
    rw [List.length_drop] at hlen
    refine .step (by omega) (by omega) hrule ?_ hrest
    rw [List.drop_take, Nat.add_sub_cancel_left]
    exact List.prefix_iff_eq_take.mp hpre

/-- The pieces of a text are its only tiling. -/
theorem tiling_iff (cs : List Char) : ∀ {before : List Char} {last : Char} {segs : List Segment},
    before.getLast? = some last →
      (Tiling (before ++ cs) before.length segs ↔
        segs = segmentsFrom before.length (pieces last cs)) := by
  induction hn : cs.length using Nat.strong_induction_on generalizing cs with
  | _ n ih =>
      intro before last segs hl
      cases cs with
      | nil =>
          rw [pieces, segmentsFrom, List.append_nil]
          constructor
          · intro h
            generalize hp : before.length = p at h
            cases h with
            | done => rfl
            | step hlt hle _ _ _ => omega
          · rintro rfl
            exact .done
      | cons c cs =>
          have hp : before.length < (before ++ c :: cs).length := by simp
          have hline : LineStart (before ++ c :: cs) before.length =
              (decide (last = '\n') = true) := by
            rw [decide_eq_true_eq]
            exact propext (lineStart_iff hl)
          obtain ⟨hcov, hne⟩ := covers_nextPiece (last = '\n') c cs
          have hlt := (covers_nextPiece (last = '\n') c cs).length_lt
          rw [hn] at hlt
          rw [tiling_cons_iff hp, hline, List.drop_left, pieces, segmentsFrom]
          generalize hpiece : nextPiece (last = '\n') c cs = piece at *
          -- The rest is tiled from the end of the first piece on, by the induction hypothesis.
          have hrest : ∀ rest,
              Tiling (before ++ c :: cs) (before.length + piece.text.length) rest ↔
                rest = segmentsFrom (before.length + piece.text.length)
                  (pieces (piece.text.getLast?.getD last) piece.rest) := by
            intro rest
            rw [hcov, ← List.append_assoc, ← List.length_append]
            exact ih _ hlt piece.rest rfl (getLast?_append_of_ne_nil hne last)
          constructor
          · rintro ⟨piece', rest, hrule, _, _, ht, rfl⟩
            obtain rfl : piece = piece' := hpiece.symm.trans (firstRule_iff.mp hrule)
            rw [(hrest rest).mp ht]
          · rintro rfl
            refine ⟨piece, _, firstRule_iff.mpr hpiece, hne, ?_, (hrest _).mpr rfl, rfl⟩
            rw [hcov]
            exact List.prefix_append _ _

theorem HeaderUpTo.getLast? {text : List Char} {e : Nat} {spec : ExportSpec} {name : List Char}
    (h : HeaderUpTo text e spec name) : (text.take e).getLast? = some ')' := by
  obtain ⟨_, A, B, S, E, htake, _⟩ := h
  rw [htake, List.getLast?_concat]

/-- **The body of a module is tiled by the first rule that applies.**  From the offset right after
the header there is one tiling up to the end of the text, and the declarations that are read are
those of its segments, in order, without the ignored ones. -/
theorem readBody_tiling {text : List Char} {header : Header} (h : readHeader text = .ok header) :
    ∃ start, HeaderUpTo text start header.spec header.moduleName.toList ∧
      text.drop start = header.body ∧
      ∃ segments, Tiling text start segments ∧
        (∀ other, Tiling text start other → other = segments) ∧
        readBody header.body = (segments.map (·.declaration)).filter (·.isKept) := by
  obtain ⟨start, hdrop, hheader⟩ := readHeader_sound h
  have htext : text.take start ++ header.body = text := by
    rw [← hdrop, List.take_append_drop]
  have hstart : (text.take start).length = start := by
    rw [List.length_take, Nat.min_eq_left hheader.1]
  have hiff : ∀ segs, Tiling text start segs ↔
      segs = segmentsFrom start (pieces ')' header.body) := by
    intro segs
    have ht := @tiling_iff header.body _ _ segs hheader.getLast?
    rwa [htext, hstart] at ht
  refine ⟨start, hheader, hdrop, _, (hiff _).mpr rfl, fun other ho => (hiff other).mp ho, ?_⟩
  rw [map_declaration_segmentsFrom, readBody]

/-- A nested comment, an annotation over two lines, a comment after code, and a type. -/
def sampleBody : List Char :=
  "\n\x7b- \x7b- -\x7d -\x7d\nf : Int ->\n  Int\nf = 1 -- f\ntype T = T".toList

def sampleText : List Char :=
  "module A exposing (f)".toList ++ sampleBody

theorem readBody_tiling_sample :
    readHeader sampleText = .ok ⟨.list [.function "f" none], "A", sampleBody⟩ ∧
      ∃ start segments, Tiling sampleText start segments ∧
        (segments.map (·.declaration)).filter (·.isKept) =
          [.comment "\x7b- \x7b- -\x7d -\x7d", .function "f" (some ["Int", "Int"]), .comment "-- f",
            .type "T" (some "= T") false] := by
  have h : readHeader sampleText = .ok ⟨.list [.function "f" none], "A", sampleBody⟩ := by
    decide +kernel
  obtain ⟨start, _, _, segments, ht, _, hread⟩ := readBody_tiling h
  refine ⟨h, start, segments, ht, hread.symm.trans ?_⟩
  decide +kernel

end SignatureSearch.Elm
