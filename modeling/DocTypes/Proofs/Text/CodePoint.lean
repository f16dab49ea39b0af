import DocTypes.Text.CodePoint
import Mathlib.Data.List.Basic

/-!
# Texts and characters

A text of characters is seen as it is, and code points that are seen as characters are theirs.
-/

namespace DocTypes

open List

theorem isScalar_toNat (c : Char) : isScalar c.toNat = true := by
  have hvalid : c.toNat < 0xD800 ∨ 0xDFFF < c.toNat ∧ c.toNat < 0x110000 := c.valid
  simp only [isScalar, isSurrogate, Bool.and_eq_true, decide_eq_true_eq, Bool.not_eq_true',
    Bool.and_eq_false_iff, decide_eq_false_iff_not]
  omega

@[simp]
theorem shownChar_toNat (c : Char) : shownChar c.toNat = c := by
  rw [shownChar, if_pos (isScalar_toNat c), Char.ofNat_toNat]

/-- The code point of a character is that of what it is seen as. -/
theorem toNat_shownChar {point : Nat} (h : isScalar point = true) :
    (shownChar point).toNat = point := by
  rw [shownChar, if_pos h]
  simp only [isScalar, isSurrogate, Bool.and_eq_true, decide_eq_true_eq, Bool.not_eq_true',
    Bool.and_eq_false_iff, decide_eq_false_iff_not] at h
  have hvalid : point.isValidChar := by
    change point < 0xD800 ∨ 0xDFFF < point ∧ point < 0x110000
    omega
  have hchar : Char.ofNat point = Char.ofNatAux point hvalid := dif_pos hvalid
  rw [hchar]
  rfl

/-- What is seen as a character is it, unless the character replaces others. -/
theorem eq_toNat_of_shownChar {point : Nat} {c : Char} (h : shownChar point = c)
    (hc : c ≠ '\uFFFD') : point = c.toNat := by
  by_cases hscalar : isScalar point = true
  · rw [← h, toNat_shownChar hscalar]
  · rw [shownChar, if_neg hscalar] at h
    exact absurd h.symm hc

@[simp]
theorem map_shownChar_codePoints (chars : List Char) :
    (codePoints chars).map shownChar = chars := by
  rw [codePoints, map_map]
  exact (map_congr_left fun c _ => shownChar_toNat c).trans (map_id chars)

theorem codePoints_map_shownChar {points : List Nat} (h : points.all isScalar = true) :
    codePoints (points.map shownChar) = points := by
  rw [codePoints, map_map]
  exact (map_congr_left fun point hmem => toNat_shownChar (all_eq_true.1 h point hmem)).trans
    (map_id points)

theorem all_isScalar_codePoints (chars : List Char) : (codePoints chars).all isScalar = true := by
  rw [codePoints, all_map, all_eq_true]
  exact fun c _ => isScalar_toNat c

theorem codePoints_append (chars chars' : List Char) :
    codePoints (chars ++ chars') = codePoints chars ++ codePoints chars' :=
  map_append

namespace Text

@[simp]
theorem chars_ofChars (chars : List Char) : (ofChars chars).chars = chars :=
  map_shownChar_codePoints chars

theorem string?_ofChars (chars : List Char) :
    (ofChars chars).string? = some (String.ofList chars) := by
  rw [string?, if_pos, chars_ofChars]
  exact all_isScalar_codePoints chars

theorem ofChars_append (chars chars' : List Char) :
    ofChars (chars ++ chars') = ofChars chars ++ ofChars chars' :=
  congrArg Text.mk (codePoints_append chars chars')

theorem append_join_nil (text : Text) : text ++ join [] = text :=
  congrArg Text.mk (append_nil text.points)

end Text

end DocTypes
