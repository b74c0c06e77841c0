/-
# `Proofs.Json.Quotation` — a text that is written is read back

A text is written character by character (`escapeChar`), as the character
itself or as one of three kinds of escapes:

    a letter           quotes, backslashes, line breaks, tabs, and the like
    four digits        the other control characters
    none               all other characters

Whatever a character is written as, the reader takes it for the one code point
that it is (`text?_escapeChar`).  Code points of characters are never halves of
surrogate pairs, so they do not merge (`ofUnits16_map_toNat`).
-/
import SignatureSearch.Json.Reader
import SignatureSearch.Json.Render

namespace SignatureSearch.Json

namespace Token

theorem hex4?_hexPadded : ∀ n < 32,
    (match Text.hexPadded 4 n with
      | [a, b, c, d] => hex4? a b c d
      | _ => none) = some n := by
  decide

theorem text?_hexPadded {n : Nat} (hn : n < 32) (rest : List Char) :
    text? ('\\' :: 'u' :: (Text.hexPadded 4 n ++ rest)) =
      (text? rest).map fun (units, rest') => (n :: units, rest') := by
  have hdigits := hex4?_hexPadded n hn
  split at hdigits
  · rename_i a b c d hpadded
    rw [hpadded]
    simp only [List.cons_append, List.nil_append, text?, hdigits]
    cases text? rest <;> rfl
  · exact absurd hdigits nofun

theorem text?_letter {c : Char} {n : Nat} (hc : c ≠ 'u') (hn : escape? c = some n)
    (rest : List Char) :
    text? ('\\' :: c :: rest) =
      (text? rest).map fun (units, rest') => (n :: units, rest') := by
  rw [text?]
  · rw [hn]
    cases text? rest <;> rfl
  · intro a b d e tail h _
    exact hc h

theorem text?_escapeChar (c : Char) (rest : List Char) :
    text? (escapeChar c ++ rest) =
      (text? rest).map fun (units, rest') => (c.toNat :: units, rest') := by
  unfold escapeChar
  split
  · exact text?_letter (by decide) rfl rest
  · exact text?_letter (by decide) rfl rest
  · exact text?_letter (by decide) rfl rest
  · exact text?_letter (by decide) rfl rest
  · exact text?_letter (by decide) rfl rest
  · rename_i hquote hbackslash _ _ _
    split
    · rename_i hc
      rw [hc]
      exact text?_letter (by decide) rfl rest
    · split
      · rename_i hc
        rw [hc]
        exact text?_letter (by decide) rfl rest
      · split
        · rename_i hc
          exact text?_hexPadded hc rest
        · rename_i hc
          rw [List.singleton_append, text?, if_neg hc]
          · exact hquote
          · exact fun _ _ _ _ _ hc => (hbackslash hc).elim
          · exact fun _ _ hc => (hbackslash hc).elim

theorem text?_flatMap_escapeChar (cs rest : List Char) :
    text? (cs.flatMap escapeChar ++ '"' :: rest) = some (cs.map Char.toNat, rest) := by
  induction cs with
  | nil => rfl
  | cons c cs ih =>
      rw [List.flatMap_cons, List.append_assoc, text?_escapeChar, ih]
      rfl

theorem toNat_ranges (c : Char) : c.toNat < 0xD800 ∨ 0xDFFF < c.toNat :=
  c.valid.imp id And.left

theorem ofCodePoint_toNat (c : Char) : Text.Utf8.ofCodePoint c.toNat = c := by
  have hranges := toNat_ranges c
  have hchar : ¬ (0xD800 ≤ c.toNat && c.toNat ≤ 0xDFFF) = true := by
    rw [Bool.and_eq_true, decide_eq_true_eq, decide_eq_true_eq]
    omega
  rw [Text.Utf8.ofCodePoint, if_neg hchar, Char.ofNat_toNat]

theorem ofUnits16_map_toNat (cs : List Char) :
    Text.Encoding.ofUnits16 (cs.map Char.toNat) = cs := by
  induction cs with
  | nil => rfl
  | cons c cs ih =>
      cases cs with
      | nil => exact congrArg (List.cons · []) (ofCodePoint_toNat c)
      | cons d cs =>
          have hranges := toNat_ranges c
          have hsingle : ¬ (0xD800 ≤ c.toNat && c.toNat < 0xDC00 && 0xDC00 ≤ d.toNat &&
              d.toNat < 0xE000) = true := by
            simp only [Bool.and_eq_true, decide_eq_true_eq]
            omega
          rw [List.map_cons, List.map_cons, Text.Encoding.ofUnits16, if_neg hsingle,
            ofCodePoint_toNat, ← List.map_cons, ih]

theorem scalar?_renderText (s : String) :
    scalar? '"' (s.toList.flatMap escapeChar ++ ['"']) = some (.value (.str s), []) := by
  unfold scalar?
  rw [if_pos rfl, text?_flatMap_escapeChar]
  show some (Token.value (.str (String.ofList _)), []) = _
  rw [ofUnits16_map_toNat, String.ofList_toList]

theorem scan_renderText (s : String) : scan (renderText s).toList = [.value (.str s)] := by
  have htext : (renderText s).toList = '"' :: (s.toList.flatMap escapeChar ++ ['"']) := by
    unfold renderText
    rw [String.toList_append, String.toList_append, String.toList_ofList, String.toList_ofList]
    rfl
  have hgap : ¬ isGap '"' = true := by decide
  have hmark : mark? '"' = none := by decide
  rw [htext, scan, if_neg hgap, hmark]
  dsimp only
  split
  · rename_i t rest hscalar
    rw [scalar?_renderText] at hscalar
    obtain ⟨rfl, rfl⟩ := Prod.mk.inj (Option.some.inj hscalar)
    rw [scan]
  · rename_i hscalar
    rw [scalar?_renderText] at hscalar
    cases hscalar

end Token

theorem read_renderText (s : String) : read (renderText s).toList = .ok (.str s) := by
  unfold read
  rw [Token.scan_renderText]
  rfl

end SignatureSearch.Json
