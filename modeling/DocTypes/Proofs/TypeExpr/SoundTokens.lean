import DocTypes.Proofs.Except
import DocTypes.Proofs.TypeExpr.Formed

/-!
# The texts of tokens

Every token that a type is taken apart into has a text of its kind (`sound_lexFrom`): a name is one
name, a number one number, and a string ends at its first closing quote and stands in the source.
-/

namespace DocTypes

open List

/-- A range that lies in one of the ranges. -/
theorem inRanges_of_any {ranges : List (Nat × Nat)} {low high : Nat} {c : Char}
    (h : (ranges.any fun range => range.1 ≤ low && high ≤ range.2) = true)
    (hlow : low ≤ c.toNat) (hhigh : c.toNat ≤ high) : inRanges ranges c = true := by
  obtain ⟨range, hmem, hrange⟩ := any_eq_true.1 h
  rw [Bool.and_eq_true, decide_eq_true_eq, decide_eq_true_eq] at hrange
  refine any_eq_true.2 ⟨range, hmem, ?_⟩
  rw [Bool.and_eq_true, decide_eq_true_eq, decide_eq_true_eq]
  omega

/-- Every digit has a numeric value. -/
theorem isAlphanumeric_of_isDigitLike {c : Char} (h : isDigitLike c = true) :
    isAlphanumeric c = true := by
  have hzeros : (decimalZeros.all fun first =>
      numericRanges.any fun range => range.1 ≤ first && first + 9 ≤ range.2) = true := by
    decide +kernel
  have hothers : (otherDigitRanges.all fun other =>
      numericRanges.any fun range => range.1 ≤ other.1 && other.2 ≤ range.2) = true := by
    decide +kernel
  rw [isDigitLike] at h
  rw [isAlphanumeric]
  split at h
  · rw [if_pos ‹_›]
    simp [Char.isAlphanum, h]
  · rw [if_neg ‹_›, Bool.or_eq_true]
    right
    rcases Bool.or_eq_true_iff.1 h with hdecimal | hother
    · rw [decimalValue?, Option.isSome_map, find?_isSome] at hdecimal
      obtain ⟨first, hmem, hfirst⟩ := hdecimal
      rw [Bool.and_eq_true, decide_eq_true_eq, decide_eq_true_eq] at hfirst
      exact inRanges_of_any (all_eq_true.1 hzeros first hmem) hfirst.1 (by omega)
    · obtain ⟨other, hmem, hother⟩ := any_eq_true.1 hother
      rw [Bool.and_eq_true, decide_eq_true_eq, decide_eq_true_eq] at hother
      exact inRanges_of_any (all_eq_true.1 hothers other hmem) hother.1 hother.2

/-- Does the cause lie in the text? The others mean that the reader did not take what it had to. -/
def TypeCause.isOfText : TypeCause → Bool
  | .pastEnd | .stalled => false
  | _ => true

namespace TypeToken

/-- Does the token have a text of its kind? What a string holds stands in the source. -/
def Sound (source : List Char) (token : TypeToken) : Prop :=
  match token.kind with
  | .name => isNameText token.text.toList = true
  | .number => isNumberText token.text.toList = true
  | .string => ∃ quote inside, token.text.toList = quote :: (inside ++ [quote]) ∧
      isStringText quote inside = true ∧ inside <:+: source
  | .punctuator | .endOfInput => True

/-- A string that was found ends at its first closing quote. -/
theorem exists_inside_of_scanString {quote : Char} {text taken rest : List Char}
    (h : scanString quote text = some (taken, rest)) :
    ∃ inside, taken = inside ++ [quote] ∧ text = inside ++ quote :: rest ∧
      scanString quote taken = some (taken, []) := by
  fun_induction scanString quote text generalizing taken rest with
  | case1 => cases h
  | case2 c later hquote =>
    cases h
    rw [beq_iff_eq] at hquote
    subst hquote
    exact ⟨[], rfl, rfl, by simp [scanString]⟩
  | case3 => cases h
  | case4 c hquote hslash d later ih =>
    obtain ⟨⟨taken', rest'⟩, hlater, heq⟩ := Option.map_eq_some_iff.1 h
    cases heq
    obtain ⟨inside, rfl, rfl, hinside⟩ := ih hlater
    exact ⟨c :: d :: inside, rfl, rfl, by simp [scanString, hquote, hslash, hinside]⟩
  | case5 c later hquote hslash ih =>
    obtain ⟨⟨taken', rest'⟩, hlater, heq⟩ := Option.map_eq_some_iff.1 h
    cases heq
    obtain ⟨inside, rfl, rfl, hinside⟩ := ih hlater
    refine ⟨c :: inside, rfl, rfl, ?_⟩
    rw [scanString.eq_def]
    simp [hquote, hslash, hinside]

/-- A number that was found is one number. -/
theorem isNumberText_of_startsNumber {c : Char} {rest : List Char}
    (h : startsNumber c rest = true) : isNumberText (c :: rest.takeWhile isNumberPart) = true := by
  have hstart : startsNumber c (rest.takeWhile isNumberPart) = true := by
    cases rest with
    | nil => exact h
    | cons d rest =>
      simp only [startsNumber, head?_cons, Option.map_some, Option.getD_some,
        Bool.or_eq_true, Bool.and_eq_true] at h ⊢
      refine h.imp_right fun ⟨hminus, hdigit⟩ => ⟨hminus, ?_⟩
      have hpart : isNumberPart d = true := by
        rw [isNumberPart, isAlphanumeric_of_isDigitLike hdigit]
        rfl
      simpa [takeWhile_cons, hpart] using hdigit
  simp [isNumberText, hstart, all_takeWhile]

/-- The token that is found next has a text of its kind, and took a character at least. -/
theorem sound_of_scan {source : List Char} {c : Char} {rest taken later : List Char}
    {kind : TypeTokenKind} (h : scan c rest = .ok ((kind, taken), later))
    (htext : c :: rest <:+ source) (offset : Nat) :
    Sound source ⟨kind, String.ofList taken, offset⟩ ∧ later <:+ rest := by
  have hrest := (suffix_cons c rest).trans htext
  rw [scan] at h
  split at h
  next hquote =>
    split at h
    next split hsplit =>
      cases h
      have hsplit' : scanString c rest = some (split.1, split.2) := hsplit
      obtain ⟨inside, htaken, rfl, hinside⟩ := exists_inside_of_scanString hsplit'
      refine ⟨⟨c, inside, by simp [htaken], ?_, ?_⟩, ?_⟩
      · rw [htaken] at hinside
        simp [isStringText, hquote, hinside]
      · exact (prefix_append _ _).isInfix.trans hrest.isInfix
      · exact ⟨inside ++ [c], by simp⟩
    next => cases h
  next =>
    split at h
    next hnumber =>
      cases h
      refine ⟨?_, dropWhile_suffix _⟩
      simpa [Sound] using isNumberText_of_startsNumber hnumber
    next hnumber =>
      split at h
      next hname =>
        cases h
        refine ⟨?_, dropWhile_suffix _⟩
        rw [startsNumber, Bool.or_eq_true, not_or, Bool.not_eq_true] at hnumber
        simp [Sound, isNameText, hname, hnumber.1, all_takeWhile]
      next =>
        split at h
        next p hfind =>
          cases h
          have hpos : (punctuators.all fun p => 0 < p.length) = true := by decide
          have hp := of_decide_eq_true (all_eq_true.1 hpos p (mem_of_find?_eq_some hfind))
          obtain ⟨n, hn⟩ := Nat.exists_eq_add_one_of_ne_zero (Nat.ne_of_gt hp)
          rw [hn, drop_succ_cons]
          exact ⟨trivial, drop_suffix _ _⟩
        next => cases h

/-- What no token starts with lies in the text. -/
theorem isOfText_of_scan {c : Char} {rest : List Char} {cause : TypeCause}
    (h : scan c rest = .error cause) : cause.isOfText = true := by
  rw [scan] at h
  repeat' split at h
  all_goals cases h
  all_goals rfl

/-- The tokens of a text have texts of their kinds. If there are none, the cause lies in the text.
-/
theorem sound_lexFrom {source text : List Char} {fuel offset : Nat} (htext : text <:+ source)
    (hfuel : text.length ≤ fuel) : match lexFrom fuel offset text with
      | .ok tokens => ∀ token ∈ tokens, token.Sound source
      | .error (cause, _) => cause.isOfText = true := by
  fun_induction lexFrom fuel offset text with
  | case1 => exact nofun
  | case2 => exact absurd hfuel (Nat.not_succ_le_zero _)
  | case3 _ _ _ _ _ ih =>
    exact ih ((suffix_cons _ _).trans htext) (Nat.le_of_succ_le_succ hfuel)
  | case4 _ _ _ _ _ _ hscan => exact isOfText_of_scan hscan
  | case5 fuel offset c rest hblank kind taken later hscan ih =>
    obtain ⟨hsound, hlater⟩ := sound_of_scan hscan htext offset
    have hih := ih ((hlater.trans (suffix_cons c rest)).trans htext)
      (Nat.le_trans hlater.length_le (Nat.le_of_succ_le_succ hfuel))
    cases hlex : lexFrom fuel (offset + taken.length) later with
    | error =>
      rw [hlex] at hih
      exact hih
    | ok tokens =>
      rw [hlex] at hih
      exact forall_mem_cons.2 ⟨hsound, hih⟩

theorem sound_lex (text : List Char) : match lex text with
    | .ok tokens => ∀ token ∈ tokens, token.Sound text
    | .error error => error.cause.isOfText = true := by
  have hlex := @sound_lexFrom text text _ 0 (suffix_refl _) (Nat.le_refl _)
  rw [lex]
  cases hfrom : lexFrom text.length 0 text <;> rw [hfrom] at hlex <;> exact hlex

end TypeToken

end DocTypes
