/-
# `Elm.Header` — the header of a module

The header is found by search: the first `module` anywhere in the text, the
first `exposing` after it, and the list in parentheses after that.  Blanks and
comments may stand around every item of the list.

    module Name exposing (..)
    module Name exposing (view, Model, Msg(..), (</>))

A failure carries the text that is left where it was noticed; `ParseError`
turns that into an offset.
-/
import SignatureSearch.Elm.Comment
import SignatureSearch.Elm.ExportSpec
import SignatureSearch.Elm.Lexical

namespace SignatureSearch.Elm

open Text

/-- Why a text has no header. -/
inductive HeaderFault where
  | noModule
  | noExposing
  | noOpeningParenthesis
  | noClosingParenthesis
  | malformedOperator
  | emptyItem
  | unterminatedGroup
deriving DecidableEq, Repr

def HeaderFault.text : HeaderFault → String
  | .noModule => "no module declaration found"
  | .noExposing => "module declaration has no exposing clause"
  | .noOpeningParenthesis => "expected '(' after exposing"
  | .noClosingParenthesis => "expected ')' to close the exposing list"
  | .malformedOperator => "malformed operator in exposing list"
  | .emptyItem => "empty item in exposing list"
  | .unterminatedGroup => "unterminated constructor group"

/-- A fault and the text that is left where it was noticed. -/
structure Stuck where
  fault : HeaderFault
  remaining : List Char
deriving DecidableEq, Repr

structure Header where
  spec : ExportSpec
  moduleName : String
  body : List Char
deriving DecidableEq, Repr

/-- An operator in parentheses, after the opening one. -/
def operatorItem? (cs : List Char) : Option (ExportedName × List Char) :=
  let operator := cs.takeWhile isOperatorChar
  match cs.dropWhile isOperatorChar with
  | ')' :: rest =>
    if operator.isEmpty then none
    else some (.function (String.ofList (['('] ++ operator ++ [')'])) none, rest)
  | _ => none

/-- A type of the name `name`, perhaps with a group of constructors. -/
def typeItem (name : String) (cs : List Char) : Except Stuck (ExportedName × List Char) :=
  match cs with
  | '(' :: inside =>
    match inside.dropWhile isGroupChar with
    | ')' :: rest =>
      .ok (.type name (some (String.ofList (squeeze (inside.takeWhile isGroupChar)))), rest)
    | _ => .error ⟨.unterminatedGroup, cs⟩
  | _ => .ok (.type name none, cs)

/-- An item of an exposing list, without trivia around it. -/
def bareItem (cs : List Char) : Except Stuck (ExportedName × List Char) :=
  match cs with
  | '(' :: rest =>
    match operatorItem? rest with
    | some found => .ok found
    | none => .error ⟨.malformedOperator, cs⟩
  | _ =>
    let name := identifier cs
    if name.isEmpty then .error ⟨.emptyItem, cs⟩
    else
      match NameKind.ofName name with
      | .function => .ok (.function (String.ofList name) none, afterIdentifier cs)
      | .type => typeItem (String.ofList name) (afterIdentifier cs)

/-- An item of an exposing list, with the trivia around it. -/
def item (cs : List Char) : Except Stuck (ExportedName × List Char) :=
  (bareItem (skipTrivia cs)).map fun (name, rest) => (name, skipTrivia rest)

theorem length_of_operatorItem? {cs rest : List Char} {name : ExportedName}
    (h : operatorItem? cs = some (name, rest)) : rest.length < cs.length := by
  simp only [operatorItem?] at h
  split at h
  · rename_i tail ht
    have := (List.dropWhile_sublist (l := cs) isOperatorChar).length_le
    rw [ht] at this
    split at h
    · simp at h
    · simp only [Option.some.injEq, Prod.mk.injEq] at h
      obtain ⟨_, rfl⟩ := h
      simp only [List.length_cons] at this
      omega
  · simp at h

theorem length_of_typeItem {name : String} {cs rest : List Char} {found : ExportedName}
    (h : typeItem name cs = .ok (found, rest)) : rest.length ≤ cs.length := by
  simp only [typeItem] at h
  split at h
  · rename_i inside
    split at h
    · rename_i tail ht
      have := (List.dropWhile_sublist (l := inside) isGroupChar).length_le
      rw [ht] at this
      simp only [Except.ok.injEq, Prod.mk.injEq] at h
      obtain ⟨_, rfl⟩ := h
      simp only [List.length_cons] at this ⊢
      omega
    · simp at h
  · simp only [Except.ok.injEq, Prod.mk.injEq] at h
    simp [h.2]

theorem length_afterIdentifier_lt {cs : List Char} (h : (identifier cs).isEmpty = false) :
    (afterIdentifier cs).length < cs.length := by
  have happ : identifier cs ++ afterIdentifier cs = cs := List.takeWhile_append_dropWhile
  have := congrArg List.length happ
  have : 0 < (identifier cs).length := by
    cases hi : identifier cs with
    | nil => simp [hi] at h
    | cons c t => simp
  simp only [List.length_append] at *
  omega

theorem length_of_bareItem {cs rest : List Char} {name : ExportedName}
    (h : bareItem cs = .ok (name, rest)) : rest.length < cs.length := by
  unfold bareItem at h
  split at h
  · split at h
    · rename_i found hf
      simp only [Except.ok.injEq] at h
      subst h
      have := length_of_operatorItem? hf
      simp only [List.length_cons]
      omega
    · simp at h
  · simp only at h
    split at h
    · simp at h
    · rename_i hn
      have hlt := length_afterIdentifier_lt (by simpa using hn)
      split at h
      · simp only [Except.ok.injEq, Prod.mk.injEq] at h
        obtain ⟨_, rfl⟩ := h
        exact hlt
      · have := length_of_typeItem h
        omega

theorem length_of_item {cs rest : List Char} {name : ExportedName}
    (h : item cs = .ok (name, rest)) : rest.length < cs.length := by
  simp only [item] at h
  cases hb : bareItem (skipTrivia cs) with
  | error e => simp [hb, Except.map] at h
  | ok found =>
    obtain ⟨found, r⟩ := found
    simp only [hb, Except.map, Except.ok.injEq, Prod.mk.injEq] at h
    obtain ⟨_, rfl⟩ := h
    have h₁ := length_of_bareItem hb
    have h₂ := length_skipTrivia cs
    have h₃ := length_skipTrivia r
    omega

/-- The items of an exposing list, one at least, separated by commas. -/
def items (cs : List Char) : Except Stuck (List ExportedName × List Char) :=
  match h : item cs with
  | .error e => .error e
  | .ok (name, ',' :: rest) =>
    have h₁ := length_of_item h
    have : rest.length < cs.length := by
      simp only [List.length_cons] at h₁
      omega
    (items rest).map fun (names, rest) => (name :: names, rest)
  | .ok (name, rest) => .ok ([name], rest)
termination_by cs.length

/-- The inside of the parentheses after `exposing`, and the text from the closing one on. -/
def exportSpec (cs : List Char) : Except Stuck (ExportSpec × List Char) :=
  match skipTrivia cs with
  | '.' :: '.' :: rest => .ok (.all, skipTrivia rest)
  | ')' :: rest => .ok (.list [], ')' :: rest)
  | start => (items start).map fun (names, rest) => (.list names, rest)

def readHeader (text : List Char) : Except Stuck Header :=
  match cut "module".toList text with
  | none => .error ⟨.noModule, text⟩
  | some (_, afterModule) =>
    match cut "exposing".toList afterModule with
    | none => .error ⟨.noExposing, afterModule⟩
    | some (name, afterExposing) =>
      match afterExposing.dropWhile isBlankOrComma with
      | '(' :: inside =>
        match exportSpec inside with
        | .error stuck => .error stuck
        | .ok (spec, ')' :: body) =>
          .ok { spec, moduleName := String.ofList (collapse name), body }
        | .ok (_, rest) => .error ⟨.noClosingParenthesis, rest⟩
      | rest => .error ⟨.noOpeningParenthesis, rest⟩

end SignatureSearch.Elm
