/-
# `Elm.Body` — the body of a module

The body is cut into consecutive pieces.  At each place the first rule that
applies decides:

1. a comment;
2. at the start of a line, a function: its name, a colon and a signature, up
   to and including the next place where the name stands alone;
3. at the start of a line, a type: from the word `type` to the line break
   before the next line that does not start with a blank;
4. otherwise one character, which is ignored.

A signature that mentions the function's own name ends there.
-/
import SignatureSearch.Elm.Comment
import SignatureSearch.Elm.Declaration
import SignatureSearch.Elm.Lexical
import SignatureSearch.Signature.Terms

namespace SignatureSearch.Elm

open Text

/-- A piece of the body: what it declares, its text, and the text after it. -/
structure Piece where
  declaration : Declaration
  text : List Char
  rest : List Char
deriving DecidableEq, Repr

/-- A piece of `cs`: it is not empty, and with the text after it makes up `cs`. -/
def Piece.Covers (p : Piece) (cs : List Char) : Prop :=
  cs = p.text ++ p.rest ∧ p.text ≠ []

def commentPiece? (cs : List Char) : Option Piece :=
  (comment? cs).map fun (text, rest) => ⟨.comment (String.ofList text), text, rest⟩

def startsIdentifier : List Char → Bool
  | c :: _ => isIdentifierChar c
  | [] => false

/-- The text after `name`, if a text starts with it and it stands alone there, that is next to no
identifier character.  `inside` says whether an identifier character comes before the text. -/
def afterAlone? (name : List Char) (inside : Bool) (cs : List Char) : Option (List Char) :=
  if inside then none else (name.isPrefixOf? cs).filter (!startsIdentifier ·)

/-- The text before and after the first place where `name` stands alone. -/
def cutAlone (name : List Char) (inside : Bool) : List Char → Option (List Char × List Char)
  | [] => none
  | c :: cs =>
    match afterAlone? name inside (c :: cs) with
    | some after => some ([], after)
    | none =>
      (cutAlone name (isIdentifierChar c) cs).map fun (before, after) => (c :: before, after)

def functionPiece? (cs : List Char) : Option Piece :=
  let name := identifier cs
  if name.isEmpty || NameKind.ofName name != .function then none
  else
    let gap := (afterIdentifier cs).takeWhile isBlankOrComma
    match (afterIdentifier cs).dropWhile isBlankOrComma with
    | ':' :: afterColon =>
      if afterColon.head? == some ':' then none
      else
        let gap' := afterColon.takeWhile isBlankOrComma
        match cutAlone name false (afterColon.dropWhile isBlankOrComma) with
        | none => none
        | some (signature, rest) =>
          some {
            declaration := .function (String.ofList name) (some (Signature.terms signature))
            text := name ++ gap ++ [':'] ++ gap' ++ signature ++ name
            rest }
    | _ => none

def startsBlank : List Char → Bool
  | c :: _ => isBlank c
  | [] => false

/-- The text up to the line break before the next line that does not start with a blank, and the
text from that line break on. -/
def topLevel : List Char → List Char × List Char
  | [] => ([], [])
  | c :: cs =>
    if c = '\n' && !startsBlank cs then ([], c :: cs)
    else
      let (inside, rest) := topLevel cs
      (c :: inside, rest)

/-- The word `alias` with the blanks after it, and the text after them. -/
def aliasWord? (cs : List Char) : Option (List Char × List Char) :=
  match "alias".toList.isPrefixOf? cs with
  | some rest =>
    if startsBlank rest then
      some ("alias".toList ++ rest.takeWhile isBlank, rest.dropWhile isBlank)
    else none
  | none => none

/-- A text collapsed; none if nothing is left. -/
def definition? (cs : List Char) : Option String :=
  let collapsed := collapse cs
  if collapsed.isEmpty then none else some (String.ofList collapsed)

def typePiece? (cs : List Char) : Option Piece :=
  match "type".toList.isPrefixOf? cs with
  | none => none
  | some afterWord =>
    if !startsBlank afterWord then none
    else
      let gap := afterWord.takeWhile isBlank
      let afterGap := afterWord.dropWhile isBlank
      let (aliasText, named) := (aliasWord? afterGap).getD ([], afterGap)
      let name := identifier named
      if name.isEmpty || NameKind.ofName name != .type then none
      else
        let (definition, rest) := topLevel (afterIdentifier named)
        some {
          declaration :=
            .type (String.ofList name) (definition? definition) (aliasWord? afterGap).isSome
          text := "type".toList ++ gap ++ aliasText ++ name ++ definition
          rest }

/-- The piece that a text starts with by one of the first three rules; `lineStart` says whether a
line starts there. -/
def piece? (lineStart : Bool) (cs : List Char) : Option Piece :=
  (commentPiece? cs).or
    (if lineStart then (functionPiece? cs).or (typePiece? cs) else none)

theorem covers_of_commentPiece? {cs : List Char} {p : Piece} (h : commentPiece? cs = some p) :
    p.Covers cs := by
  simp only [commentPiece?, Option.map_eq_some_iff, Prod.exists] at h
  obtain ⟨text, rest, hc, rfl⟩ := h
  exact append_of_comment? hc

theorem append_of_afterAlone? {name cs after : List Char} {inside : Bool}
    (h : afterAlone? name inside cs = some after) : cs = name ++ after := by
  cases inside with
  | true => exact absurd h (by simp [afterAlone?])
  | false =>
    simp only [afterAlone?, Bool.false_eq_true, if_false, Option.filter_eq_some_iff] at h
    exact append_of_isPrefixOf? h.1

theorem append_of_cutAlone {name : List Char} {inside : Bool} {cs before after : List Char}
    (h : cutAlone name inside cs = some (before, after)) : cs = before ++ name ++ after := by
  induction cs generalizing inside before after with
  | nil => simp [cutAlone] at h
  | cons c cs ih =>
    simp only [cutAlone] at h
    split at h
    · rename_i tail ht
      simp only [Option.some.injEq, Prod.mk.injEq] at h
      obtain ⟨rfl, rfl⟩ := h
      exact append_of_afterAlone? ht
    · simp only [Option.map_eq_some_iff, Prod.mk.injEq, Prod.exists] at h
      obtain ⟨x, y, hxy, rfl, rfl⟩ := h
      simpa using ih hxy

theorem identifier_append (cs : List Char) : identifier cs ++ afterIdentifier cs = cs :=
  List.takeWhile_append_dropWhile

theorem covers_of_functionPiece? {cs : List Char} {p : Piece} (h : functionPiece? cs = some p) :
    p.Covers cs := by
  simp only [functionPiece?] at h
  split at h
  · simp at h
  · rename_i hn
    split at h
    · rename_i afterColon hcolon
      split at h
      · simp at h
      · split at h
        · simp at h
        · rename_i signature rest hcut
          simp only [Option.some.injEq] at h
          subst h
          refine ⟨?_, ?_⟩
          · have h₁ := append_of_cutAlone hcut
            have h₂ : afterColon.takeWhile isBlankOrComma ++ afterColon.dropWhile isBlankOrComma =
                afterColon := List.takeWhile_append_dropWhile
            have h₃ : (afterIdentifier cs).takeWhile isBlankOrComma ++
                (afterIdentifier cs).dropWhile isBlankOrComma = afterIdentifier cs :=
              List.takeWhile_append_dropWhile
            rw [hcolon, ← h₂, h₁] at h₃
            have h₄ := identifier_append cs
            rw [← h₃] at h₄
            simpa using h₄.symm
          · simp
    · simp at h

theorem append_topLevel (cs : List Char) : (topLevel cs).1 ++ (topLevel cs).2 = cs := by
  induction cs with
  | nil => rfl
  | cons c cs ih =>
    simp only [topLevel]
    split
    · simp
    · simp [ih]

theorem append_of_aliasWord? {cs word rest : List Char} (h : aliasWord? cs = some (word, rest)) :
    cs = word ++ rest := by
  simp only [aliasWord?] at h
  split at h
  · rename_i tail ht
    split at h
    · simp only [Option.some.injEq, Prod.mk.injEq] at h
      obtain ⟨rfl, rfl⟩ := h
      rw [append_of_isPrefixOf? ht, List.append_assoc, List.takeWhile_append_dropWhile]
    · simp at h
  · simp at h

theorem covers_of_typePiece? {cs : List Char} {p : Piece} (h : typePiece? cs = some p) :
    p.Covers cs := by
  simp only [typePiece?] at h
  split at h
  · simp at h
  · rename_i afterWord hw
    split at h
    · simp at h
    · split at h
      · simp at h
      · simp only [Option.some.injEq] at h
        subst h
        refine ⟨?_, by simp⟩
        have h₁ := append_of_isPrefixOf? hw
        have h₂ : afterWord.takeWhile isBlank ++ afterWord.dropWhile isBlank = afterWord :=
          List.takeWhile_append_dropWhile
        have h₃ : ((aliasWord? (afterWord.dropWhile isBlank)).getD
              ([], afterWord.dropWhile isBlank)).1 ++
            ((aliasWord? (afterWord.dropWhile isBlank)).getD
              ([], afterWord.dropWhile isBlank)).2 = afterWord.dropWhile isBlank := by
          cases ha : aliasWord? (afterWord.dropWhile isBlank) with
          | none => simp
          | some found =>
            obtain ⟨word, rest⟩ := found
            simpa using (append_of_aliasWord? ha).symm
        have h₄ := identifier_append ((aliasWord? (afterWord.dropWhile isBlank)).getD
              ([], afterWord.dropWhile isBlank)).2
        have h₅ := append_topLevel (afterIdentifier ((aliasWord? (afterWord.dropWhile isBlank)).getD
              ([], afterWord.dropWhile isBlank)).2)
        rw [← h₅] at h₄
        rw [← h₄] at h₃
        rw [← h₃] at h₂
        rw [← h₂] at h₁
        simpa using h₁

theorem covers_of_piece? {lineStart : Bool} {cs : List Char} {p : Piece}
    (h : piece? lineStart cs = some p) : p.Covers cs := by
  simp only [piece?, Option.or_eq_some_iff] at h
  rcases h with h | ⟨_, h⟩
  · exact covers_of_commentPiece? h
  · split at h
    · simp only [Option.or_eq_some_iff] at h
      rcases h with h | ⟨_, h⟩
      · exact covers_of_functionPiece? h
      · exact covers_of_typePiece? h
    · simp at h

theorem Piece.Covers.length_lt {p : Piece} {cs : List Char} (h : p.Covers cs) :
    p.rest.length < cs.length := by
  obtain ⟨rfl, hne⟩ := h
  have := List.length_pos_iff.2 hne
  simp only [List.length_append]
  omega

/-- The piece that a text, not empty, starts with. -/
def nextPiece (lineStart : Bool) (c : Char) (cs : List Char) : Piece :=
  (piece? lineStart (c :: cs)).getD ⟨.ignore, [c], cs⟩

theorem covers_nextPiece (lineStart : Bool) (c : Char) (cs : List Char) :
    (nextPiece lineStart c cs).Covers (c :: cs) := by
  cases h : piece? lineStart (c :: cs) with
  | none => simp [nextPiece, h, Piece.Covers]
  | some p => simpa [nextPiece, h] using covers_of_piece? h

/-- The pieces of a text that comes after the character `last`. -/
def pieces (last : Char) : List Char → List Piece
  | [] => []
  | c :: cs =>
    let p := nextPiece (last = '\n') c cs
    p :: pieces (p.text.getLast?.getD last) p.rest
termination_by cs => cs.length
decreasing_by exact (covers_nextPiece (last = '\n') c cs).length_lt

/-- The declarations of the body after a header, which ends with a parenthesis. -/
def readBody (body : List Char) : List Declaration :=
  ((pieces ')' body).map (·.declaration)).filter (·.isKept)

end SignatureSearch.Elm
