import DocTypes.Proofs.Except
import DocTypes.Source.Lexer
import DocTypes.Text.Blank
import Mathlib.Data.List.TakeDrop

/-!
# What scanners split off

A scanner that succeeds gives a text and what follows it, and the two together are what it was
given. What it splits off ends in a character that is no white space (`EndsSolid`): that is why no
token reaches into the layout before a comment.
-/

namespace DocTypes

open List

/-- The white-space characters, one by one. -/
def blankChars : List Char :=
  (blankRanges.flatMap fun range => List.range' range.1 (range.2 + 1 - range.1)).map Char.ofNat

variable {c : Char} {p : Char → Bool} {cs : List Char} {split : Split}

/-- White space is one of the white-space characters. -/
theorem mem_blankChars (h : isBlank c = true) : c ∈ blankChars := by
  obtain ⟨range, hmem, hrange⟩ := any_eq_true.1 h
  simp only [Bool.and_eq_true, decide_eq_true_eq] at hrange
  refine mem_map.2 ⟨c.toNat, mem_flatMap.2 ⟨range, hmem, ?_⟩, Char.ofNat_toNat c⟩
  exact mem_range'_1.2 ⟨hrange.1, by omega⟩

/-- A class of characters that holds none of the white-space characters holds no white space. -/
theorem isBlank_eq_false (hp : blankChars.all fun c => !p c) (h : p c = true) :
    isBlank c = false := by
  cases hc : isBlank c with
  | false => rfl
  | true =>
    have := all_eq_true.1 hp c (mem_blankChars hc)
    rw [h] at this
    cases this

/-- What stands in a name is no white space. -/
theorem isBlank_of_namePart (h : isNamePart c = true) : isBlank c = false :=
  isBlank_eq_false (by decide +kernel) h

/-- What starts a name stands in one. -/
theorem isNamePart_of_start (h : isNameStart c = true) : isNamePart c = true := by
  simp [isNamePart, h]

/-- A text whose last character is no white space. -/
def EndsSolid (text : List Char) : Prop :=
  ∃ front last, text = front ++ [last] ∧ isBlank last = false

/-- A text without white space, and with a character, ends in one that is no white space. -/
theorem endsSolid_of_all {text : List Char} (hne : text ≠ [])
    (h : ∀ c ∈ text, isBlank c = false) : EndsSolid text :=
  ⟨text.dropLast, text.getLast hne, (dropLast_concat_getLast hne).symm,
    h _ (getLast_mem hne)⟩

/-- Characters in front do not change how a text ends. -/
theorem EndsSolid.append {text : List Char} (h : EndsSolid text) (front : List Char) :
    EndsSolid (front ++ text) := by
  obtain ⟨before, last, rfl, hlast⟩ := h
  exact ⟨front ++ before, last, (append_assoc ..).symm, hlast⟩

/-- A span splits what it was given. -/
theorem span_split (p : Char → Bool) (cs : List Char) : (cs.span p).1 ++ (cs.span p).2 = cs := by
  rw [span_eq_takeWhile_dropWhile]
  exact takeWhile_append_dropWhile

/-- What a span splits off is of its class. -/
theorem span_forall : ∀ c ∈ (cs.span p).1, p c = true := by
  rw [span_eq_takeWhile_dropWhile]
  exact fun c hc => all_eq_true.1 all_takeWhile c hc

/-- What follows a span does not start in its class. -/
theorem span_stop : ∀ c ∈ (cs.span p).2.head?, p c = false := by
  rw [span_eq_takeWhile_dropWhile]
  intro c hc
  have hhead := head?_dropWhile_not p cs
  rw [hc] at hhead
  simpa using hhead

/-- A span of a text that starts in its class starts with the text's first character. -/
theorem span_cons (h : p c = true) :
    ((c :: cs).span p).1 = c :: (cs.span p).1 := by
  rw [span_eq_takeWhile_dropWhile, span_eq_takeWhile_dropWhile,
    takeWhile_cons_of_pos h]

/-- Characters put in front of a split. -/
theorem Split.prepend_split {front : List Char} (h : split.1 ++ split.2 = cs) :
    (split.prepend front).1 ++ (split.prepend front).2 = front ++ cs := by
  rw [Split.prepend, append_assoc, h]

/-- Characters put in front of a split whose first part ends in a mark. -/
theorem Split.prepend_ends {front mark : List Char}
    (h : split.1 ++ split.2 = cs ∧ ∃ text, split.1 = text ++ mark) :
    (split.prepend front).1 ++ (split.prepend front).2 = front ++ cs ∧
      ∃ text, (split.prepend front).1 = text ++ mark := by
  obtain ⟨hsplit, text, htext⟩ := h
  exact ⟨Split.prepend_split hsplit, front ++ text, by rw [Split.prepend, htext, append_assoc]⟩

/-- A string is split off with its closing quote. -/
theorem scanString_split {quote : Char} (h : scanString quote cs = some split) :
    split.1 ++ split.2 = cs ∧ ∃ front, split.1 = front ++ [quote] := by
  fun_induction scanString quote cs generalizing split with
  | case1 => cases h
  | case2 c rest hquote =>
    cases h
    exact ⟨rfl, [], by rw [beq_iff_eq.1 hquote]; rfl⟩
  | case3 => cases h
  | case4 c _ _ d rest ih =>
    obtain ⟨inner, hinner, rfl⟩ := Option.map_eq_some_iff.1 h
    exact Split.prepend_ends (ih hinner)
  | case5 => cases h
  | case6 c rest _ _ _ ih =>
    obtain ⟨inner, hinner, rfl⟩ := Option.map_eq_some_iff.1 h
    exact Split.prepend_ends (ih hinner)

/-- Template text is split off with its closing backtick or the opening of a substitution. -/
theorem scanTemplate_split {opens : Bool} (h : scanTemplate cs = some (split, opens)) :
    split.1 ++ split.2 = cs ∧
      ∃ front, split.1 = front ++ (if opens then ['$', '{'] else ['\x60']) := by
  fun_induction scanTemplate cs generalizing split with
  | case1 => cases h
  | case2 => cases h
  | case3 c _ d rest ih =>
    obtain ⟨inner, hinner, heq⟩ := Option.map_eq_some_iff.1 h
    cases heq
    exact Split.prepend_ends (ih hinner)
  | case4 c rest _ hquote =>
    cases h
    exact ⟨rfl, [], by rw [beq_iff_eq.1 hquote]; rfl⟩
  | case5 rest =>
    cases h
    exact ⟨rfl, [], rfl⟩
  | case6 c _ _ rest _ ih =>
    obtain ⟨inner, hinner, heq⟩ := Option.map_eq_some_iff.1 h
    cases heq
    exact Split.prepend_ends (ih hinner)

/-- The body of a regular expression is split off with its closing slash. -/
theorem scanRegexBody_split {inClass : Bool} (h : scanRegexBody inClass cs = some split) :
    split.1 ++ split.2 = cs ∧ ∃ front, split.1 = front ++ ['/'] := by
  fun_induction scanRegexBody inClass cs generalizing split with
  | case1 => cases h
  | case2 => cases h
  | case3 => cases h
  | case4 inClass c _ _ d rest ih =>
    obtain ⟨inner, hinner, rfl⟩ := Option.map_eq_some_iff.1 h
    exact Split.prepend_ends (ih hinner)
  | case5 inClass c rest _ _ hslash =>
    cases h
    simp only [Bool.and_eq_true, beq_iff_eq] at hslash
    exact ⟨rfl, [], by rw [hslash.1]; rfl⟩
  | case6 inClass c rest _ _ _ inClass' =>
    rename_i ih
    obtain ⟨inner, hinner, rfl⟩ := Option.map_eq_some_iff.1 h
    exact Split.prepend_ends (ih hinner)

/-- A regular expression is split off with its flags. -/
theorem scanRegex_split (h : scanRegex cs = some split) :
    split.1 ++ split.2 = cs ∧ EndsSolid split.1 := by
  obtain ⟨body, hbody, rfl⟩ := Option.map_eq_some_iff.1 h
  obtain ⟨hsplit, front, hfront⟩ := scanRegexBody_split hbody
  refine ⟨(Split.prepend_split (span_split isNamePart body.2)).trans hsplit, ?_⟩
  rw [Split.prepend]
  cases hflags : (body.2.span isNamePart).1 with
  | nil => exact ⟨front, '/', by rw [append_nil, hfront], by decide⟩
  | cons c flags =>
    rw [← hflags]
    refine EndsSolid.append (endsSolid_of_all (by rw [hflags]; nofun) ?_) _
    exact fun c hc => isBlank_of_namePart (span_forall c hc)

/-- A block comment is split off with its end mark, the first one. -/
theorem scanBlockComment_split (h : scanBlockComment cs = some split) : split.1 ++ split.2 = cs ∧
      ∃ text, split.1 = text ++ ['*', '/'] ∧ ¬['*', '/'] <:+: text := by
  fun_induction scanBlockComment cs generalizing split with
  | case1 => cases h
  | case2 rest =>
    cases h
    exact ⟨rfl, [], rfl, by decide⟩
  | case3 c rest hmark ih =>
    obtain ⟨inner, hinner, rfl⟩ := Option.map_eq_some_iff.1 h
    obtain ⟨hsplit, text, htext, hopen⟩ := ih hinner
    refine ⟨Split.prepend_split hsplit, c :: text, by rw [Split.prepend, htext]; rfl,
      fun hclose => ?_⟩
    rcases infix_cons_iff.1 hclose with ⟨later, heq⟩ | hwithin
    · cases heq
      rw [htext] at hsplit
      exact hmark _ rfl hsplit.symm
    · exact hopen hwithin

/-- Every punctuator has a character, and none that is white space. -/
theorem punctuators_solid : punctuators.all (fun p => p.toList.all (!isBlank ·) && p != "") :=
  by decide

/-- What fits starts the text. -/
theorem prefix_of_fits {p : String} (h : punctuatorFits p cs = true) : p.toList <+: cs := by
  simp only [punctuatorFits, Bool.and_eq_true] at h
  exact isPrefixOf_iff_prefix.1 h.1

/-- A punctuator is split off. -/
theorem scanPunctuator_split (h : scanPunctuator cs = some split) :
    split.1 ++ split.2 = cs ∧ ∃ p ∈ punctuators, split.1 = p.toList ∧ punctuatorFits p cs := by
  obtain ⟨p, hp, rfl⟩ := Option.map_eq_some_iff.1 h
  have hfits := find?_some hp
  refine ⟨take_append_drop _ _, p, mem_of_find?_eq_some hp, ?_, hfits⟩
  rw [← String.length_toList]
  exact (prefix_iff_eq_take.1 (prefix_of_fits hfits)).symm

/-- A split of a text, of which the first part has no white space. -/
def SolidSplit (cs : List Char) (split : Split) : Prop :=
  split.1 ++ split.2 = cs ∧ ∀ c ∈ split.1, isBlank c = false

/-- A span of a class without white space. -/
theorem solidSplit_span (hp : blankChars.all fun c => !p c) (cs : List Char) :
    SolidSplit cs (cs.span p) :=
  ⟨span_split p cs, fun c hc => isBlank_eq_false hp (span_forall c hc)⟩

/-- Characters without white space put in front of a split. -/
theorem SolidSplit.prepend {front : List Char} (h : SolidSplit cs split)
    (hfront : ∀ c ∈ front, isBlank c = false) : SolidSplit (front ++ cs) (split.prepend front) := by
  refine ⟨Split.prepend_split h.1, fun c hc => ?_⟩
  rcases mem_append.1 hc with hc | hc
  · exact hfront c hc
  · exact h.2 c hc

theorem solidSplit_nil (cs : List Char) : SolidSplit cs ([], cs) :=
  ⟨rfl, nofun⟩

/-- A fraction has no white space. -/
theorem solidSplit_scanFraction (cs : List Char) : SolidSplit cs (scanFraction cs) := by
  unfold scanFraction
  split
  case h_1 rest =>
    exact (solidSplit_span (by decide) rest).prepend
      (forall_mem_singleton.2 (by decide))
  case h_2 => exact solidSplit_nil cs

/-- A sign, if there is one, and what follows it. -/
theorem take_sign_append_drop (p : Char → Bool) (rest : List Char) :
    (rest.take 1).filter p ++ rest.drop ((rest.take 1).filter p).length = rest := by
  cases rest with
  | nil => rfl
  | cons s later => by_cases h : p s <;> simp [h]

/-- A sign at the start of a text, if there is one. -/
theorem take_sign_mem (text : List Char) :
    (text.take 1).filter (fun s => s == '+' || s == '-') ∈ [[], ['+'], ['-']] := by
  cases text with
  | nil => exact .head _
  | cons s later =>
    by_cases hplus : s = '+'
    · simp [hplus]
    · by_cases hminus : s = '-' <;> simp [hplus, hminus]

/-- The parts of an exponent: a mark, perhaps a sign, and digits. -/
structure IsExponent (mark : Char) (sign digits : List Char) : Prop where
  mark : (mark == 'e' || mark == 'E') = true
  sign : sign ∈ [[], ['+'], ['-']]
  nonempty : digits ≠ []
  digits : ∀ c ∈ digits, c.isDigit = true

/-- An exponent is scanned up to the end of its digits, if there is one. -/
theorem scanExponent_cases (h : scanExponent cs = .ok split) :
    split = ([], cs) ∧ (∀ c ∈ cs.head?, (c == 'e' || c == 'E') = false) ∨
    ∃ mark sign digits, IsExponent mark sign digits ∧ split.1 = mark :: (sign ++ digits) ∧
      split.1 ++ split.2 = cs ∧ ∀ c ∈ split.2.head?, c.isDigit = false := by
  unfold scanExponent at h
  split at h
  case h_1 c rest =>
    split at h
    case isTrue hmark =>
      dsimp only at h
      split at h
      case h_1 d later hdigits =>
        split at h
        case isTrue hdigit =>
          cases h
          refine .inr ⟨c, _, _, ⟨hmark, take_sign_mem rest, ?_, span_forall⟩, rfl, ?_, span_stop⟩
          · rw [hdigits, span_cons hdigit]
            exact cons_ne_nil _ _
          · rw [Split.prepend_split (span_split _ _), cons_append, take_sign_append_drop]
        case isFalse => cases h
      case h_2 => cases h
    case isFalse hmark =>
      cases h
      refine .inl ⟨rfl, ?_⟩
      rintro _ ⟨⟩
      exact Bool.eq_false_iff.2 hmark
  case h_2 =>
    cases h
    exact .inl ⟨rfl, nofun⟩

/-- An exponent has no white space. -/
theorem solidSplit_scanExponent (h : scanExponent cs = .ok split) : SolidSplit cs split := by
  rcases scanExponent_cases h with ⟨rfl, -⟩ | ⟨mark, sign, digits, hparts, htext, happend, -⟩
  · exact solidSplit_nil cs
  · have hmark := hparts.mark
    have hsign := hparts.sign
    simp only [Bool.or_eq_true, beq_iff_eq, mem_cons, not_mem_nil, or_false] at hmark hsign
    refine ⟨happend, ?_⟩
    rw [htext]
    refine forall_mem_cons.2 ⟨?_, forall_mem_append.2 ⟨?_, fun c hc => ?_⟩⟩
    · rcases hmark with rfl | rfl <;> decide
    · rcases hsign with rfl | rfl | rfl
      · exact forall_mem_nil _
      · exact forall_mem_singleton.2 rfl
      · exact forall_mem_singleton.2 rfl
    · exact isBlank_eq_false (by decide) (hparts.digits c hc)

/-- What was read off a number, and the rest of it. -/
theorem SolidSplit.append {first later : Split} (h : SolidSplit cs first)
    (hlater : SolidSplit first.2 later) : SolidSplit cs (later.prepend first.1) := by
  rw [← h.1]
  exact hlater.prepend h.2

/-- A decimal number without the mark of a big integer. -/
def scanDecimal (cs : List Char) : Except NumberCause Split := do
  let whole := cs.span isSpacedDigit
  let fraction := scanFraction whole.2
  let exponent ← scanExponent fraction.2
  return Split.prepend (whole.1 ++ fraction.1) exponent

/-- The letters that stand for a radix. -/
theorem scanMagnitude_radix {radix : Char} (h : "xXoObB".toList.contains radix = true) :
    scanMagnitude ('0' :: radix :: cs) =
      if (cs.span (isRadixDigit radix)).1.isEmpty then .error .noDigits
      else .ok (Split.prepend ['0', radix] (cs.span (isRadixDigit radix))) := by
  rw [scanMagnitude, if_pos h]

/-- Any other text is read as a decimal number. -/
theorem scanMagnitude_decimal
    (h : ∀ radix later, cs = '0' :: radix :: later → "xXoObB".toList.contains radix = false) :
    scanMagnitude cs = scanDecimal cs := by
  unfold scanMagnitude
  split
  case h_1 radix later =>
    rw [if_neg (by rw [h radix later rfl]; exact Bool.false_ne_true)]
    rfl
  case h_2 => rfl

/-- A number has a radix letter and digits after it, or is decimal. -/
theorem scanMagnitude_cases (h : scanMagnitude cs = .ok split) :
    (∃ radix later, cs = '0' :: radix :: later ∧ "xXoObB".toList.contains radix = true ∧
      (later.span (isRadixDigit radix)).1.isEmpty = false ∧
      split = Split.prepend ['0', radix] (later.span (isRadixDigit radix))) ∨
    (∀ radix later, cs = '0' :: radix :: later → "xXoObB".toList.contains radix = false) ∧
      scanDecimal cs = .ok split := by
  by_cases hradix : ∃ radix later, cs = '0' :: radix :: later ∧
      "xXoObB".toList.contains radix = true
  · obtain ⟨radix, later, rfl, hradix⟩ := hradix
    rw [scanMagnitude_radix hradix] at h
    split at h
    case isTrue => cases h
    case isFalse hdigits =>
      cases h
      exact .inl ⟨radix, later, rfl, hradix, Bool.eq_false_iff.2 hdigits, rfl⟩
  · have hdecimal : ∀ radix later, cs = '0' :: radix :: later →
        "xXoObB".toList.contains radix = false := by
      intro radix later hcs
      exact Bool.eq_false_iff.2 fun hcontains => hradix ⟨radix, later, hcs, hcontains⟩
    rw [scanMagnitude_decimal hdecimal] at h
    exact .inr ⟨hdecimal, h⟩

/-- Neither a radix letter nor a digit after it is white space. -/
theorem radix_solid : ("xXoObB".toList.all fun radix =>
    !isBlank radix && blankChars.all fun c => !isRadixDigit radix c) = true := by
  decide

/-- The digits of a number have no white space. -/
theorem solidSplit_scanMagnitude (h : scanMagnitude cs = .ok split) : SolidSplit cs split := by
  rcases scanMagnitude_cases h with ⟨radix, later, rfl, hradix, -, rfl⟩ | ⟨-, h⟩
  · obtain ⟨hletter, hdigit⟩ := Bool.and_eq_true_iff.1
      (all_eq_true.1 radix_solid radix (contains_iff_mem.1 hradix))
    refine (solidSplit_span hdigit later).prepend (forall_mem_cons.2 ⟨by decide, ?_⟩)
    exact forall_mem_singleton.2 (by simpa using hletter)
  · obtain ⟨exponent, hexponent, heq⟩ := bind_eq_ok.1 h
    cases heq
    have hwhole := solidSplit_span (p := isSpacedDigit) (by decide) cs
    exact (hwhole.append (solidSplit_scanFraction _)).append (solidSplit_scanExponent hexponent)

/-- A number has no white space. -/
theorem solidSplit_scanNumber (h : scanNumber cs = .ok split) :
    SolidSplit cs split := by
  obtain ⟨magnitude, hmagnitude, h⟩ := bind_eq_ok.1 h
  have hsolid := solidSplit_scanMagnitude hmagnitude
  split at h
  case h_1 rest hrest =>
    cases h
    refine ⟨by rw [← hsolid.1, hrest]; simp, fun c hc => ?_⟩
    rcases mem_append.1 hc with hc | hc
    · exact hsolid.2 c hc
    · rw [mem_singleton.1 hc]
      decide
  case h_2 =>
    cases h
    exact hsolid

/-- A number that starts with a digit or with a point is not empty. -/
theorem scanMagnitude_ne_nil (hstart : c.isDigit = true ∨ c = '.')
    (h : scanMagnitude (c :: cs) = .ok split) : split.1 ≠ [] := by
  rcases scanMagnitude_cases h with ⟨radix, later, -, -, -, rfl⟩ | ⟨-, h⟩
  · exact cons_ne_nil _ _
  · obtain ⟨exponent, hexponent, heq⟩ := bind_eq_ok.1 h
    cases heq
    rcases hstart with hdigit | rfl
    · have hspaced : isSpacedDigit c = true := by simp [isSpacedDigit, hdigit]
      rw [Split.prepend, span_cons hspaced]
      exact cons_ne_nil _ _
    · have hpoint : ('.' :: cs).span isSpacedDigit = ([], '.' :: cs) := by
        rw [span_eq_takeWhile_dropWhile]
        rfl
      rw [Split.prepend, hpoint]
      exact cons_ne_nil _ _

/-- A number that starts with a digit or with a point is not empty, with its mark. -/
theorem scanNumber_ne_nil (hstart : c.isDigit = true ∨ c = '.')
    (h : scanNumber (c :: cs) = .ok split) :
    split.1 ≠ [] := by
  obtain ⟨magnitude, hmagnitude, h⟩ := bind_eq_ok.1 h
  split at h
  case h_1 =>
    cases h
    simp
  case h_2 =>
    cases h
    exact scanMagnitude_ne_nil hstart hmagnitude

end DocTypes
