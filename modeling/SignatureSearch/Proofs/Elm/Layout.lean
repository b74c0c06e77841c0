/-
# `Proofs.Elm.Layout` — every declaration of a well laid out module is exported

A module is laid out in blocks, each with a line break after it:

    -- a line comment
    {- a block comment, perhaps with others inside -}
    name : t₁ -> … -> tₙ
    name implementation
    type Name definition
    type alias Name definition

An implementation or a definition goes on over lines that start with a blank.
Reading such a module with `exposing (..)` gives one entry for each function
and each type, in order (`readModule_layout`).

The argument goes block by block: a block is read as far as the line break
after it and no further (`entriesFrom_block`), whatever comes next, provided
that it does not start with a blank.  Two things have to be seen on the way.
The signature of a function ends at the line of its implementation, for the
name stands alone there for the first time (`cutAlone_join`).  And nothing
inside an implementation starts a declaration, since its lines start with
blanks, nor a block comment; a line comment in it ends with its line
(`entriesFrom_implementation`).
-/
import Mathlib.Data.List.Chain
import Mathlib.Data.List.Forall2
import SignatureSearch.Proofs.Elm.Tiling
import SignatureSearch.Proofs.Signature.Terms

namespace SignatureSearch.Elm

open Text Signature

/-! ## Texts in which a name does not stand alone -/

/-- Nowhere in a text does `name` stand next to no identifier character. -/
def NeverAlone (name : List Char) (inside : Bool) (cs : List Char) : Prop :=
  ∀ before after, cs = before ++ after → ¬ AloneAt name inside before after

theorem neverAlone_nil {name : List Char} (hne : name ≠ []) (inside : Bool) :
    NeverAlone name inside [] := by
  rintro before after hs ⟨rest, rfl, _⟩
  simp [hne] at hs

theorem neverAlone_cons_iff {name : List Char} {inside : Bool} {c : Char} {cs : List Char} :
    NeverAlone name inside (c :: cs) ↔
      ¬ AloneAt name inside [] (c :: cs) ∧ NeverAlone name (isIdentifierChar c) cs := by
  rw [NeverAlone, NeverAlone, ← aloneAt_cons name inside c]
  constructor
  · intro h
    exact ⟨h [] _ rfl, fun before after hs => h (c :: before) after (by rw [hs]; rfl)⟩
  · rintro ⟨hhere, hlater⟩ before after hs
    cases before with
    | nil =>
        obtain rfl : c :: cs = after := hs
        exact hhere
    | cons d before =>
        obtain ⟨rfl, hcs⟩ := List.cons.inj hs
        exact hlater before after hcs

theorem cutAlone_eq_none_iff {name : List Char} (hne : name ≠ []) {cs : List Char} :
    ∀ {inside : Bool}, cutAlone name inside cs = none ↔ NeverAlone name inside cs := by
  induction cs with
  | nil => exact fun {inside} => ⟨fun _ => neverAlone_nil hne inside, fun _ => rfl⟩
  | cons c cs ih =>
      intro inside
      rw [cutAlone, neverAlone_cons_iff, ← afterAlone?_eq_none_iff]
      cases afterAlone? name inside (c :: cs) with
      | some rest => simp
      | none => rw [Option.map_eq_none_iff, ih]; simp

/-- A name is not found in a text where it never stands alone, nor across the character after that
text, if this is no identifier character. -/
theorem cutAlone_skip {name : List Char} {kind : NameKind} (hn : IsName kind name) {c : Char}
    (hc : isIdentifierChar c = false) (t more : List Char) : ∀ {inside : Bool},
    NeverAlone name inside t →
      cutAlone name inside (t ++ c :: more) =
        (cutAlone name false more).map fun (before, after) => (t ++ c :: before, after) := by
  have hmem : c ∉ name := by
    intro hm
    rw [hn.chars c hm] at hc
    exact Bool.noConfusion hc
  induction t with
  | nil =>
      intro inside _
      have hno : afterAlone? name inside (c :: more) = none := by
        rw [afterAlone?_eq_none_iff]
        rintro ⟨rest, hs, _⟩
        have hp : name <+: [] ++ c :: more := ⟨rest, hs.symm⟩
        exact hn.ne_nil (List.prefix_nil.mp (prefix_of_prefix_append_cons hmem hp))
      rw [List.nil_append, cutAlone, hno, hc]
      rfl
  | cons d t ih =>
      intro inside ht
      have hno : afterAlone? name inside (d :: (t ++ c :: more)) = none := by
        rw [afterAlone?_eq_none_iff]
        rintro ⟨rest, hs, hi, hrest⟩
        have hp : name <+: (d :: t) ++ c :: more := ⟨rest, hs.symm⟩
        obtain ⟨rest', hs'⟩ := prefix_of_prefix_append_cons hmem hp
        refine (neverAlone_cons_iff.mp ht).1 ⟨rest', hs'.symm, hi, ?_⟩
        -- Inside `d :: t` the name is followed by the same text, or by nothing.
        have hsame : rest = rest' ++ c :: more := by
          rw [← List.cons_append, ← hs', List.append_assoc] at hs
          exact (List.append_cancel_left hs).symm
        cases rest' with
        | nil => rfl
        | cons e rest' => rwa [hsame] at hrest
      rw [List.cons_append, cutAlone, hno, ih (neverAlone_cons_iff.mp ht).2, Option.map_map]
      rfl

theorem cutAlone_separator {name : List Char} {kind : NameKind} (hn : IsName kind name) {c : Char}
    (hc : isIdentifierChar c = false) (more : List Char) :
    cutAlone name false (c :: more) =
      (cutAlone name false more).map fun (before, after) => (c :: before, after) :=
  cutAlone_skip hn hc [] more (neverAlone_nil hn.ne_nil false)

theorem cutAlone_gap {name : List Char} {kind : NameKind} (hn : IsName kind name)
    {gap : List Char} (hg : ∀ c ∈ gap, isBlank c = true) (more : List Char) :
    cutAlone name false (gap ++ more) =
      (cutAlone name false more).map fun (before, after) => (gap ++ before, after) := by
  induction gap with
  | nil => simp
  | cons c gap ih =>
      rw [List.cons_append,
        cutAlone_separator hn (isIdentifierChar_of_isBlank (hg c List.mem_cons_self)),
        ih fun d hd => hg d (List.mem_cons_of_mem _ hd), Option.map_map]
      rfl

/-- In a line of terms, none of which has the name alone, and the line after it, the name stands
alone for the first time at the start of that second line. -/
theorem cutAlone_join {name : List Char} {kind : NameKind} (hn : IsName kind name)
    {rest : List Char} (hr : startsIdentifier rest = false) {ts : List (List Char)} : ts ≠ [] →
    (∀ t ∈ ts, NeverAlone name false t) →
      cutAlone name false (joinTerms ts ++ '\n' :: (name ++ rest)) =
        some (joinTerms ts ++ ['\n'], rest) := by
  have hnext : cutAlone name false (name ++ rest) = some ([], rest) := by
    rw [cutAlone_eq_some_iff hn.ne_nil, firstPlace_nil_iff]
    exact ⟨rfl, rest, rfl, rfl, hr⟩
  induction ts with
  | nil => exact fun hne _ => absurd rfl hne
  | cons t ts ih =>
      intro _ hts
      have ht : NeverAlone name false t := hts t List.mem_cons_self
      cases ts with
      | nil =>
          rw [joinTerms, List.intercalate_singleton, cutAlone_skip hn (by decide) t _ ht, hnext]
          rfl
      | cons u us =>
          have hne : u :: us ≠ [] := List.cons_ne_nil u us
          have htail := ih hne fun v hv => hts v (List.mem_cons_of_mem _ hv)
          have htext : joinTerms (t :: u :: us) ++ '\n' :: (name ++ rest) =
              t ++ ' ' :: '-' :: '>' :: ' ' :: (joinTerms (u :: us) ++ '\n' :: (name ++ rest)) := by
            rw [joinTerms_cons t hne]
            simp
          rw [htext, cutAlone_skip hn (by decide) t _ ht, cutAlone_separator hn (by decide),
            cutAlone_separator hn (by decide), cutAlone_separator hn (by decide), htail,
            joinTerms_cons t hne]
          simp

/-! ## Blocks -/

/-- Every line break is followed by a blank, or by nothing. -/
def Indented (cs : List Char) : Prop :=
  cs.IsChain fun c d => c = '\n' → isBlank d = true

instance (cs : List Char) : Decidable (Indented cs) :=
  inferInstanceAs (Decidable (cs.IsChain fun c d => c = '\n' → isBlank d = true))

/-- A function: a line with its signature, and its implementation. -/
structure FunctionBlock where
  name : List Char
  terms : List (List Char)
  rest : List Char
  isName : IsName .function name
  terms_ne_nil : terms ≠ []
  isTerm : ∀ t ∈ terms, IsTerm t
  noComma : ∀ t ∈ terms.head?, t.head? ≠ some ','
  neverAlone : ∀ t ∈ terms, NeverAlone name false t
  separate : startsIdentifier rest = false
  noOpening : ¬ opening <:+: rest
  indented : Indented rest

def FunctionBlock.text (f : FunctionBlock) : List Char :=
  f.name ++ " : ".toList ++ joinTerms f.terms ++ '\n' :: (f.name ++ f.rest)

/-- A type or an alias, with what follows its name. -/
structure TypeBlock where
  isAlias : Bool
  name : List Char
  definition : List Char
  isName : IsName .type name
  separate : startsIdentifier definition = false
  indented : Indented definition

def TypeBlock.text (t : TypeBlock) : List Char :=
  "type ".toList ++ (if t.isAlias then "alias ".toList else []) ++ t.name ++ t.definition

/-- What a module is laid out of. -/
inductive Block where
  | lineComment (text : List Char) (dashes : ['-', '-'] <+: text) (inLine : '\n' ∉ text)
  | blockComment (text : List Char) (closed : BlockComment text)
  | function (f : FunctionBlock)
  | type (t : TypeBlock)

namespace Block

def text : Block → List Char
  | .lineComment text _ _ => text
  | .blockComment text _ => text
  | .function f => f.text
  | .type t => t.text

/-- A block declares a function or a type. -/
def isDeclaration : Block → Bool
  | .function _ => true
  | .type _ => true
  | _ => false

/-- The entry that a declaration is exported as. -/
inductive Gives : Block → ExportEntry → Prop
  | function (f : FunctionBlock) :
      Gives (.function f) (.function (String.ofList f.name) (some (f.terms.map String.ofList)))
  | type (t : TypeBlock) {definition : Option String} : DefinitionOf t.definition definition →
      Gives (.type t) (.type (String.ofList t.name) definition)

end Block

def layOut (blocks : List Block) : List Char :=
  blocks.flatMap fun b => b.text ++ ['\n']

def moduleText (name : List Char) (blocks : List Block) : List Char :=
  "module ".toList ++ name ++ " exposing (..)\n".toList ++ layOut blocks

/-! ## Entries, piece by piece -/

/-- What a piece is exported as, everything being exposed. -/
def Piece.exported? (p : Piece) : Option ExportEntry :=
  toEntry? none p.declaration

/-- The entries of a text after the character `last`. -/
def entriesFrom (last : Char) (cs : List Char) : List ExportEntry :=
  (pieces last cs).filterMap (·.exported?)

/-- One step: the first piece gives its entry, if any. -/
theorem entriesFrom_piece {last : Char} {cs : List Char} {p : Piece} (hne : cs ≠ [])
    (h : FirstRule (last = '\n') cs p) :
    entriesFrom last cs =
      p.exported?.toList ++ entriesFrom (p.text.getLast?.getD last) p.rest := by
  obtain ⟨c, tail, rfl⟩ := List.exists_cons_of_ne_nil hne
  have hnext : nextPiece (last = '\n') c tail = p := by
    rw [← firstRule_iff]
    simpa using h
  rw [entriesFrom, pieces, hnext, List.filterMap_cons]
  cases p.exported? <;> rfl

theorem entriesFrom_comment (last : Char) {text rest : List Char} (h : CommentBefore rest text) :
    entriesFrom last (text ++ rest) = entriesFrom (text.getLast?.getD last) rest := by
  have hne : text ≠ [] := (append_of_comment? (comment?_eq_some_iff.mpr ⟨rfl, h⟩)).2
  exact entriesFrom_piece (by simp [hne]) (.comment (.intro h))

theorem not_rule_of_isBlank {c : Char} (hc : isBlank c = true) (cs : List Char) (q : Piece) :
    ¬ FunctionRule (c :: cs) q ∧ ¬ TypeRule (c :: cs) q := by
  have hid : identifier (c :: cs) = [] := by
    rw [identifier, List.takeWhile_cons, isIdentifierChar_of_isBlank hc]
    rfl
  have htype : ¬ "type".toList <+: c :: cs := by
    intro hp
    obtain rfl := (List.cons_prefix_cons.mp hp).1
    exact absurd hc (by decide)
  rw [← functionPiece?_eq_some_iff, ← typePiece?_eq_some_iff]
  constructor
  · simp [functionPiece?, hid]
  · rw [typePiece?, isPrefixOf?_eq_none_iff.mpr htype]
    simp

theorem entriesFrom_char {last c : Char} {cs : List Char} (hc : comment? (c :: cs) = none)
    (hline : last = '\n' → isBlank c = true) :
    entriesFrom last (c :: cs) = entriesFrom c cs := by
  have hcom : ∀ q, ¬ CommentRule (c :: cs) q := by
    rw [← commentPiece?_eq_none_iff, commentPiece?, hc]
    rfl
  exact entriesFrom_piece (List.cons_ne_nil c cs)
    (.character hcom fun hl q => not_rule_of_isBlank (hline hl) cs q)

theorem entriesFrom_lineBreak (last : Char) (more : List Char) :
    entriesFrom last ('\n' :: more) = entriesFrom '\n' more :=
  entriesFrom_char (comment?_cons_eq_none more (by decide) (by decide)) fun _ => by decide

/-! ## Implementations -/

theorem Indented.tail {c : Char} {cs : List Char} (h : Indented (c :: cs)) : Indented cs :=
  List.IsChain.tail h

theorem Indented.right_of_append {cs ds : List Char} (h : Indented (cs ++ ds)) : Indented ds :=
  List.IsChain.right_of_append h

theorem Indented.head {cs : List Char} (h : Indented ('\n' :: cs)) :
    ∀ c ∈ cs.head?, isBlank c = true := by
  intro c hc
  exact List.IsChain.rel_head? h hc rfl

/-- A line comment that starts in a text ends in it, or where the text does. -/
theorem exists_lineComment {cs : List Char} (h : ['-', '-'] <+: cs) (more : List Char) :
    ∃ line tail, cs = line ++ tail ∧ LineComment line (tail ++ '\n' :: more) := by
  have hread : lineComment? cs = some (cs.takeWhile (· != '\n'), cs.dropWhile (· != '\n')) :=
    if_pos (List.isPrefixOf_iff_prefix.mpr h)
  obtain ⟨hsplit, hline⟩ := lineComment?_eq_some_iff.mp hread
  refine ⟨_, _, hsplit, hline.dashes, hline.inLine, Or.inr ?_⟩
  rcases hline.stops with hnil | hbreak
  · rw [hnil]
    rfl
  · rw [List.head?_append, hbreak]
    rfl

/-- Where a text without opening delimiters has a comment, it is a line comment. -/
theorem dashes_of_comment? {cs more : List Char} {found : List Char × List Char}
    (hopen : ¬ opening <:+: cs) (h : comment? (cs ++ '\n' :: more) = some found) :
    ['-', '-'] <+: cs := by
  obtain ⟨text, after⟩ := found
  obtain ⟨hsplit, hblock | hline⟩ := comment?_eq_some_iff.mp h
  · obtain ⟨inside, rfl, _⟩ := hblock
    have hp : opening <+: cs ++ '\n' :: more := by
      rw [hsplit, List.append_assoc]
      exact List.prefix_append _ _
    have hcs : opening <+: cs := prefix_of_prefix_append_cons (by decide) hp
    exact absurd hcs.isInfix hopen
  · have hp : ['-', '-'] <+: cs ++ '\n' :: more := by
      rw [hsplit]
      exact hline.dashes.trans (List.prefix_append _ _)
    exact prefix_of_prefix_append_cons (by decide) hp

theorem entriesFrom_implementation {rest : List Char} (more : List Char) : ∀ {last : Char},
    (last = '\n' → ∀ c ∈ rest.head?, isBlank c = true) → ¬ opening <:+: rest → Indented rest →
      entriesFrom last (rest ++ '\n' :: more) = entriesFrom '\n' more := by
  -- A line comment is passed over at once, so that the induction is on the length.
  induction hn : rest.length using Nat.strong_induction_on generalizing rest with
  | _ n ih =>
      intro last hlast hopen hind
      cases rest with
      | nil => exact entriesFrom_lineBreak last more
      | cons c rest =>
          cases hc : comment? ((c :: rest) ++ '\n' :: more) with
          | none =>
              rw [List.cons_append] at hc ⊢
              rw [entriesFrom_char hc fun hl => hlast hl c rfl]
              rw [List.infix_cons_iff, not_or] at hopen
              refine ih rest.length (by rw [← hn]; simp) rfl ?_ hopen.2 hind.tail
              rintro rfl
              exact hind.head
          | some found =>
              obtain ⟨line, tail, hsplit, hline⟩ :=
                exists_lineComment (dashes_of_comment? hopen hc) more
              have hne : line ≠ [] := by
                rintro rfl
                exact absurd hline.head? (by simp)
              have hlt : tail.length < n := by
                have := List.length_pos_iff.mpr hne
                rw [← hn, hsplit, List.length_append]
                omega
              rw [hsplit] at hopen hind ⊢
              rw [List.append_assoc, entriesFrom_comment last (Or.inr hline)]
              refine ih _ hlt rfl (fun hl => absurd hl ?_) (fun hi => hopen ?_) hind.right_of_append
              · rw [List.getLast?_eq_some_getLast hne]
                exact fun he => hline.inLine (he ▸ List.getLast_mem hne)
              · exact hi.trans (List.suffix_append _ _).isInfix

/-! ## Functions -/

theorem startsIdentifier_eq_false_iff {cs : List Char} :
    startsIdentifier cs = false ↔ ∀ c ∈ cs.head?, isIdentifierChar c = false := by
  cases cs with
  | nil => simp [startsIdentifier]
  | cons c cs => simp [startsIdentifier]

theorem startsIdentifier_append_lineBreak {cs : List Char} (h : startsIdentifier cs = false)
    (more : List Char) : startsIdentifier (cs ++ '\n' :: more) = false := by
  cases cs with
  | nil => rfl
  | cons c cs => exact h

theorem not_commentRule_of_isIdentifierChar {c : Char} (hc : isIdentifierChar c = true)
    (cs : List Char) : ∀ q, ¬ CommentRule (c :: cs) q := by
  have hnone : comment? (c :: cs) = none :=
    comment?_cons_eq_none cs (ne_of_isIdentifierChar hc (by decide))
      (ne_of_isIdentifierChar hc (by decide))
  rw [← commentPiece?_eq_none_iff, commentPiece?, hnone]
  rfl

/-- After the colon and the blanks a signature does not start with a comma. -/
theorem FunctionBlock.signature_start (f : FunctionBlock) :
    ∀ c ∈ ((joinTerms f.terms ++ ['\n']).dropWhile isBlank).head?, c ≠ ',' := by
  obtain ⟨t, ts, hts⟩ := List.exists_cons_of_ne_nil f.terms_ne_nil
  have ht : IsTerm t := f.isTerm t (by rw [hts]; exact List.mem_cons_self)
  have hcomma := f.noComma t (by rw [hts]; rfl)
  rw [hts]
  cases t with
  | nil =>
      cases ts with
      | nil => exact fun _ hc => absurd hc (Option.not_mem_none _)
      | cons u us =>
          intro c hc
          rw [joinTerms_cons [] (List.cons_ne_nil u us)] at hc
          obtain rfl : '-' = c := Option.mem_some.mp hc
          decide
  | cons d t =>
      have hjoin : joinTerms ((d :: t) :: ts) = d :: joinTerms (t :: ts) := by
        cases ts <;> rfl
      intro c hc
      rw [hjoin, List.cons_append, List.dropWhile_cons, isBlank_head_of_trim ht.trimmed] at hc
      obtain rfl : d = c := Option.mem_some.mp hc
      exact fun he => hcomma (by rw [he]; rfl)

/-- The signature ends where the implementation starts, and is read as the terms of the block. -/
theorem FunctionBlock.signature_firstPlace (f : FunctionBlock) (more : List Char) :
    ∃ gap signature, joinTerms f.terms ++ ['\n'] = gap ++ signature ∧
      MaximalRun isBlankOrComma gap (signature ++ (f.name ++ (f.rest ++ '\n' :: more))) ∧
      FirstPlace (AloneAt f.name false) (signature ++ (f.name ++ (f.rest ++ '\n' :: more)))
        signature (f.name ++ (f.rest ++ '\n' :: more)) ∧
      Signature.terms signature = f.terms.map String.ofList := by
  obtain ⟨gap, signature, hsplit, hgap⟩ := exists_maximalRun isBlank (joinTerms f.terms ++ ['\n'])
  have hsig : (joinTerms f.terms ++ ['\n']).dropWhile isBlank = signature := by
    rw [hsplit, hgap.dropWhile_eq]
  have hrest : startsIdentifier (f.rest ++ '\n' :: more) = false :=
    startsIdentifier_append_lineBreak f.separate more
  refine ⟨gap, signature, hsplit, ⟨fun c hc => ?_, fun c hc => ?_⟩, ?_, ?_⟩
  · rw [isBlankOrComma, hgap.inside c hc]
    rfl
  · cases signature with
    | nil =>
        obtain ⟨d, name, hname, hd⟩ := f.isName.head
        rw [hname] at hc
        obtain rfl : d = c := Option.mem_some.mp hc
        exact isBlankOrComma_of_isIdentifierChar hd
    | cons d signature =>
        obtain rfl : d = c := Option.mem_some.mp hc
        have hcomma := f.signature_start d (by rw [hsig]; rfl)
        rw [isBlankOrComma, hgap.stops d rfl]
        simpa using hcomma
  · have hcut := cutAlone_join f.isName hrest f.terms_ne_nil f.neverAlone
    have htext : joinTerms f.terms ++ '\n' :: (f.name ++ (f.rest ++ '\n' :: more)) =
        gap ++ (signature ++ (f.name ++ (f.rest ++ '\n' :: more))) := by
      rw [← List.append_assoc gap, ← hsplit, List.append_assoc]
      rfl
    rw [htext, hsplit, cutAlone_gap f.isName hgap.inside, Option.map_eq_some_iff] at hcut
    obtain ⟨⟨before, after⟩, hcut, heq⟩ := hcut
    obtain ⟨hbefore, rfl⟩ := Prod.mk.inj heq
    obtain rfl := List.append_cancel_left hbefore
    exact (cutAlone_eq_some_iff f.isName.ne_nil).mp hcut
  · rw [← hsig, terms_dropWhile, terms_join f.terms_ne_nil f.isTerm]

/-- The piece that a function block starts with ends with the name of the implementation. -/
theorem FunctionBlock.rule (f : FunctionBlock) (more : List Char) :
    ∃ upTo, FunctionRule (f.text ++ '\n' :: more)
      ⟨.function (String.ofList f.name) (some (f.terms.map String.ofList)), upTo ++ f.name,
        f.rest ++ '\n' :: more⟩ := by
  obtain ⟨gap, signature, hsplit, hgap, hfirst, hterms⟩ := f.signature_firstPlace more
  have htext : f.text ++ '\n' :: more =
      f.name ++ [' '] ++ [':'] ++ (' ' :: gap) ++ signature ++ f.name ++
        (f.rest ++ '\n' :: more) := by
    have hjoin : joinTerms f.terms ++ '\n' :: (f.name ++ f.rest) =
        gap ++ signature ++ (f.name ++ f.rest) := by
      rw [← hsplit, List.append_assoc]
      rfl
    rw [FunctionBlock.text, List.append_assoc _ (joinTerms f.terms), hjoin]
    simp
  refine ⟨f.name ++ [' '] ++ [':'] ++ (' ' :: gap) ++ signature, ?_⟩
  rw [htext, ← hterms]
  refine .intro f.isName (maximalRun_cons f.isName.chars (by decide) _)
    (maximalRun_of_all (by decide) (by decide) _) (by simp) ⟨?_, hgap.stops⟩ hfirst
  intro c hc
  rcases List.mem_cons.mp hc with rfl | hc
  · decide
  · exact hgap.inside c hc

theorem FunctionBlock.head (f : FunctionBlock) :
    ∃ c tail, f.text = c :: tail ∧ isIdentifierChar c = true := by
  obtain ⟨c, tail, hname, hc⟩ := f.isName.head
  refine ⟨c, tail ++ " : ".toList ++ joinTerms f.terms ++ '\n' :: (f.name ++ f.rest), ?_, hc⟩
  rw [FunctionBlock.text, hname]
  rfl

theorem entriesFrom_function (f : FunctionBlock) (more : List Char) :
    entriesFrom '\n' (f.text ++ '\n' :: more) =
      .function (String.ofList f.name) (some (f.terms.map String.ofList)) ::
        entriesFrom '\n' more := by
  obtain ⟨upTo, hrule⟩ := f.rule more
  obtain ⟨c, tail, htext, hc⟩ := f.head
  have hno : ∀ q, ¬ CommentRule (f.text ++ '\n' :: more) q := by
    rw [htext]
    exact not_commentRule_of_isIdentifierChar hc _
  -- The piece ends with the name, which holds no line break.
  have hlast : ((upTo ++ f.name).getLast?.getD '\n') ≠ '\n' := by
    rw [List.getLast?_append_of_ne_nil _ f.isName.ne_nil,
      List.getLast?_eq_some_getLast f.isName.ne_nil]
    exact ne_of_isIdentifierChar (f.isName.chars _ (List.getLast_mem _)) (by decide)
  rw [entriesFrom_piece (by simp) (.function hno rfl hrule),
    entriesFrom_implementation more (fun h => absurd h hlast) f.noOpening f.indented]
  rfl

/-! ## Types -/

theorem not_functionRule {word gap rest : List Char}
    (hw : MaximalRun isIdentifierChar word (gap ++ rest))
    (hg : MaximalRun isBlankOrComma gap rest) (hcolon : rest.head? ≠ some ':') :
    ∀ q, ¬ FunctionRule (word ++ (gap ++ rest)) q := by
  obtain ⟨hid, haf⟩ := identifier_append_of_stop hw.inside hw.stops
  rw [← functionPiece?_eq_none_iff]
  simp only [functionPiece?, hid, haf, hg.dropWhile_eq]
  split
  · rfl
  · split
    · exact absurd rfl hcolon
    · rfl

/-- An indented text is ended by the line break before a line that does not start with a blank. -/
theorem firstPlace_lineEnds {cs more : List Char} (hmore : startsBlank more = false) :
    Indented cs →
      FirstPlace (fun _ after => LineEnds after) (cs ++ '\n' :: more) cs ('\n' :: more) := by
  induction cs with
  | nil => exact fun _ => firstPlace_nil_iff.mpr ⟨rfl, Or.inr ⟨more, rfl, hmore⟩⟩
  | cons c cs ih =>
      intro h
      refine (firstPlace_cons_after ?_).mpr (ih h.tail)
      rintro (hnil | ⟨next, hnext, hb⟩)
      · exact absurd hnil (by simp)
      · obtain ⟨rfl, rfl⟩ := List.cons.inj hnext
        cases cs with
        | nil =>
            have hd : isBlank '\n' = true := by decide
            exact absurd hb (by simp [startsBlank, hd])
        | cons d cs =>
            have hd : isBlank d = true := h.head d rfl
            exact absurd hb (by simp [startsBlank, hd])

/-- After the word `type` and a space comes the word `alias` or the name. -/
theorem TypeBlock.afterWord (t : TypeBlock) (rest : List Char) :
    ∃ word c tail, t.text ++ rest = "type".toList ++ ([' '] ++ c :: tail) ∧
      c :: tail = word ++ (t.name ++ (t.definition ++ rest)) ∧ isIdentifierChar c = true ∧
      AliasWord (t.name ++ (t.definition ++ rest)) word t.isAlias := by
  obtain ⟨c, tail, hname, hc⟩ := t.isName.head
  cases ha : t.isAlias with
  | false =>
      refine ⟨[], c, tail ++ (t.definition ++ rest), ?_, by rw [hname]; rfl, hc, .absent⟩
      unfold TypeBlock.text
      rw [ha, hname]
      simp
  | true =>
      have hspace : MaximalRun isBlank [' '] (t.name ++ (t.definition ++ rest)) := by
        rw [hname]
        exact maximalRun_of_all (by decide) (isBlank_of_isIdentifierChar hc) _
      refine ⟨"alias".toList ++ [' '], 'a', "lias ".toList ++ (t.name ++ (t.definition ++ rest)), ?_,
        rfl, by decide, .present (by simp) hspace⟩
      unfold TypeBlock.text
      rw [ha]
      simp

/-- A type block is no function, and it is read as far as its last line. -/
theorem TypeBlock.rule (t : TypeBlock) {more : List Char} (hmore : startsBlank more = false) :
    ∃ text, (∀ q, ¬ FunctionRule (t.text ++ '\n' :: more) q) ∧
      TypeRule (t.text ++ '\n' :: more)
        ⟨.type (String.ofList t.name) (definition? t.definition) t.isAlias, text, '\n' :: more⟩ := by
  obtain ⟨word, c, tail, htext, hword, hc, halias⟩ := t.afterWord ('\n' :: more)
  refine ⟨"type".toList ++ [' '] ++ word ++ t.name ++ t.definition, ?_, ?_⟩
  · rw [htext]
    refine not_functionRule (maximalRun_of_all (by decide) (by decide) _)
      (maximalRun_of_all (by decide) (isBlankOrComma_of_isIdentifierChar hc) tail) ?_
    exact fun he => ne_of_isIdentifierChar hc (by decide) (Option.some.inj he)
  · have hshape : t.text ++ '\n' :: more =
        "type".toList ++ [' '] ++ word ++ t.name ++ t.definition ++ '\n' :: more := by
      rw [htext, hword]
      simp
    have hspace : MaximalRun isBlank [' '] (c :: tail) :=
      maximalRun_of_all (by decide) (isBlank_of_isIdentifierChar hc) tail
    have hstop := startsIdentifier_append_lineBreak t.separate more
    rw [hshape]
    rw [hword] at hspace
    exact .intro (by simp) hspace halias t.isName
      ⟨t.isName.chars, startsIdentifier_eq_false_iff.mp hstop⟩
      (firstPlace_lineEnds hmore t.indented) (definition?_eq_iff.mp rfl)

theorem entriesFrom_type (t : TypeBlock) {more : List Char} (hmore : startsBlank more = false) :
    entriesFrom '\n' (t.text ++ '\n' :: more) =
      .type (String.ofList t.name) (definition? t.definition) :: entriesFrom '\n' more := by
  obtain ⟨text, hnofun, hrule⟩ := t.rule hmore
  obtain ⟨word, c, tail, htext, _⟩ := t.afterWord ('\n' :: more)
  have hno : ∀ q, ¬ CommentRule (t.text ++ '\n' :: more) q := by
    rw [htext]
    exact not_commentRule_of_isIdentifierChar (by decide) _
  rw [entriesFrom_piece (by simp) (.type hno rfl hnofun hrule), entriesFrom_lineBreak]
  simp [Piece.exported?, toEntry?]

/-! ## Whole modules -/

theorem Block.head (b : Block) : ∃ c tail, b.text = c :: tail ∧ isBlank c = false := by
  cases b with
  | lineComment text dashes inLine =>
      obtain ⟨tail, rfl⟩ := dashes
      exact ⟨'-', _, rfl, by decide⟩
  | blockComment text closed =>
      obtain ⟨inside, rfl, _⟩ := closed
      exact ⟨'{', _, rfl, by decide⟩
  | function f =>
      obtain ⟨c, tail, htext, hc⟩ := f.head
      exact ⟨c, tail, htext, isBlank_of_isIdentifierChar hc⟩
  | type t => exact ⟨'t', _, rfl, by decide⟩

theorem layOut_cons (b : Block) (blocks : List Block) :
    layOut (b :: blocks) = b.text ++ '\n' :: layOut blocks := by
  rw [layOut, List.flatMap_cons, ← layOut, List.append_assoc]
  rfl

theorem startsBlank_layOut (blocks : List Block) : startsBlank (layOut blocks) = false := by
  cases blocks with
  | nil => rfl
  | cons b blocks =>
      obtain ⟨c, tail, htext, hc⟩ := b.head
      rw [layOut_cons, htext]
      exact hc

/-- A block gives its entry, if it declares something, and leaves what comes after it alone. -/
theorem entriesFrom_block (b : Block) {more : List Char} (hmore : startsBlank more = false) :
    ∃ entries, List.Forall₂ Block.Gives ([b].filter (·.isDeclaration)) entries ∧
      entriesFrom '\n' (b.text ++ '\n' :: more) = entries ++ entriesFrom '\n' more := by
  cases b with
  | lineComment text dashes inLine =>
      refine ⟨[], .nil, ?_⟩
      rw [Block.text, entriesFrom_comment _ (Or.inr ⟨dashes, inLine, Or.inr rfl⟩),
        entriesFrom_lineBreak]
      rfl
  | blockComment text closed =>
      refine ⟨[], .nil, ?_⟩
      rw [Block.text, entriesFrom_comment _ (Or.inl closed), entriesFrom_lineBreak]
      rfl
  | function f => exact ⟨[_], .cons (.function f) .nil, entriesFrom_function f more⟩
  | type t =>
      exact ⟨[_], .cons (.type t (definition?_eq_iff.mp rfl)) .nil, entriesFrom_type t hmore⟩

theorem entriesFrom_layOut (blocks : List Block) :
    List.Forall₂ Block.Gives (blocks.filter (·.isDeclaration))
      (entriesFrom '\n' (layOut blocks)) := by
  induction blocks with
  | nil =>
      rw [layOut, List.flatMap_nil, entriesFrom, pieces]
      exact .nil
  | cons b blocks ih =>
      obtain ⟨entries, hgives, hentries⟩ := entriesFrom_block b (startsBlank_layOut blocks)
      rw [layOut_cons, hentries, ← List.singleton_append, List.filter_append]
      exact List.rel_append hgives ih

theorem exports_readBody (body : List Char) (name : String) :
    (Module.mk .all (readBody body) name).exports = entriesFrom ')' body := by
  rw [Module.exports, resolve, readBody, entriesFrom, List.filterMap_filter, List.filterMap_map]
  congr 1
  funext p
  cases hd : p.declaration <;> simp [hd, Declaration.isKept, entryUnder?, Piece.exported?, toEntry?]

/-- A word comes first after a text without it that is set between spaces. -/
theorem firstIn_spaced {pat : List Char} (hs : ' ' ∉ pat) (hne : pat ≠ []) {cs : List Char}
    (h : ¬ pat <:+: cs) (rest : List Char) :
    FirstIn pat (' ' :: (cs ++ [' ']) ++ pat ++ rest) (' ' :: (cs ++ [' '])) := by
  have hcut : cut pat (' ' :: (cs ++ [' ']) ++ pat ++ rest) = some (' ' :: (cs ++ [' ']), rest) := by
    have hshape : ' ' :: (cs ++ [' ']) ++ pat ++ rest = [] ++ ' ' :: (cs ++ ' ' :: (pat ++ rest)) := by
      simp
    rw [hshape, cut_skip hs hne [] _ (by simpa using hne), cut_skip hs hne cs _ h, cut_of_prefix]
    rfl
  exact ⟨_, cut_eq_some_iff.mp hcut⟩

theorem readHeader_moduleText {name : List Char} (h : ¬ "exposing".toList <:+: name)
    (blocks : List Block) :
    readHeader (moduleText name blocks) =
      .ok ⟨.all, String.ofList (collapse (' ' :: (name ++ [' ']))), '\n' :: layOut blocks⟩ := by
  have htext : moduleText name blocks = [] ++ "module".toList ++
      (' ' :: (name ++ [' ']) ++ "exposing".toList ++
        ([' '] ++ '(' :: (['.', '.'] ++ ')' :: ('\n' :: layOut blocks)))) := by
    unfold moduleText
    simp
  have hmodule : ∀ rest, FirstIn "module".toList ([] ++ "module".toList ++ rest) [] := fun rest =>
    ⟨_, firstPlace_nil_iff.mpr ⟨rfl, List.prefix_append _ _⟩⟩
  have hall : Exposes ['.', '.'] .all := .all .nil .nil
  rw [htext]
  exact readHeader_complete (hmodule _) (firstIn_spaced (by decide) (by decide) h _)
    (List.forall_mem_singleton.mpr (by decide)) (collapse_eq_iff.mp rfl) hall

/-- **Every declaration of a well laid out module is exported**, whatever comments stand between
them: reading gives one entry for each function and each type, in the order of the blocks. -/
theorem readModule_layout {name : List Char} (h : ¬ "exposing".toList <:+: name)
    (blocks : List Block) :
    ∃ m, readModule (moduleText name blocks) = .ok m ∧
      List.Forall₂ Block.Gives (blocks.filter (·.isDeclaration)) m.exports := by
  have hread : readModule (moduleText name blocks) =
      .ok ⟨.all, readBody ('\n' :: layOut blocks),
        String.ofList (collapse (' ' :: (name ++ [' '])))⟩ := by
    rw [readModule, readHeader_moduleText h blocks]
  refine ⟨_, hread, ?_⟩
  rw [exports_readBody, entriesFrom_lineBreak]
  exact entriesFrom_layOut blocks

/-- A term that holds the name inside another word, and a comment in the implementation that looks
like an annotation. -/
def sampleFunction : FunctionBlock where
  name := "f".toList
  terms := ["(f2".toList, "b)".toList, "List f_".toList]
  rest := " g =\n  g -- f : Int\n".toList
  isName := ⟨by decide +kernel, List.all_eq_true.mp (by decide +kernel), by decide +kernel⟩
  terms_ne_nil := by decide +kernel
  isTerm := by decide +kernel
  noComma := by simp
  neverAlone t ht := by
    have hall : ∀ t ∈ ["(f2".toList, "b)".toList, "List f_".toList],
        cutAlone "f".toList false t = none := by decide +kernel
    exact (cutAlone_eq_none_iff (by decide +kernel)).mp (hall t ht)
  separate := by decide +kernel
  noOpening := by decide +kernel
  indented := by decide +kernel

def sampleType : TypeBlock where
  isAlias := true
  name := "T".toList
  definition := " =\n    List\n  Int".toList
  isName := ⟨by decide +kernel, List.all_eq_true.mp (by decide +kernel), by decide +kernel⟩
  separate := by decide +kernel
  indented := by decide +kernel

theorem blockComment_sample : BlockComment "\x7b- \x7b- -\x7d\ntype A = A\n-\x7d".toList := by
  have h : blockComment? "\x7b- \x7b- -\x7d\ntype A = A\n-\x7d".toList =
      some ("\x7b- \x7b- -\x7d\ntype A = A\n-\x7d".toList, []) := by decide +kernel
  exact (blockComment?_eq_some_iff.mp h).2

/-- A nested comment that holds a type, a function, a line comment and a type. -/
def sampleBlocks : List Block :=
  [.blockComment _ blockComment_sample, .function sampleFunction,
    .lineComment "-- f : Int".toList (by decide +kernel) (by decide +kernel), .type sampleType]

theorem readModule_layout_sample :
    ¬ "exposing".toList <:+: "A.B".toList ∧
      ∃ m, readModule (moduleText "A.B".toList sampleBlocks) = .ok m ∧
        List.Forall₂ Block.Gives [.function sampleFunction, .type sampleType] m.exports := by
  have h : ¬ "exposing".toList <:+: "A.B".toList := by decide +kernel
  exact ⟨h, readModule_layout h sampleBlocks⟩

end SignatureSearch.Elm
