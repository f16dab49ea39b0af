import DocTypes.Proofs.Lexing.Tiling

/-!
# Where tokens end

A token does not depend on all of the text after it. What a scanner split off, it splits off again
when another text follows, provided that the new text does not go on with the token (`EndsBefore`).
So the tokens of a text can be spaced anew: `TokenChain` says what is required of the tokens alone,
`Parted` what is required of each piece and the text after it, and `TokenChain.lexes` puts the two
together.
-/

namespace DocTypes

open List

variable {rest cs : List Char} {c : Char} {p : String}

/-- A span takes a text of its class up to the first character that is not of the class. -/
theorem span_append {p : Char → Bool} {text : List Char} (htext : ∀ c ∈ text, p c = true)
    (hrest : ∀ c ∈ rest.head?, p c = false) : (text ++ rest).span p = (text, rest) := by
  rw [span_eq_takeWhile_dropWhile, takeWhile_append_of_pos htext,
    dropWhile_append_of_pos htext]
  cases rest with
  | nil => simp
  | cons c cs =>
    have hc := hrest c rfl
    simp [hc]

section
variable {cs rest : List Char} {split : Split}

/-- A string ends at its closing quote, whatever follows. -/
theorem scanString_append {quote : Char} (h : scanString quote cs = some split) :
    scanString quote (split.1 ++ rest) = some (split.1, rest) := by
  fun_induction scanString quote cs generalizing split with
  | case1 | case3 | case5 => cases h
  | case2 c cs hquote =>
    cases h
    rw [cons_append, scanString.eq_def]
    simp [hquote]
  | case4 c hquote hslash d cs ih =>
    obtain ⟨inner, hinner, rfl⟩ := Option.map_eq_some_iff.1 h
    rw [Split.prepend, cons_append, cons_append, scanString.eq_def]
    simp [hquote, hslash, ih hinner, Split.prepend]
  | case6 c cs hquote hslash hbreak ih =>
    obtain ⟨inner, hinner, rfl⟩ := Option.map_eq_some_iff.1 h
    rw [Split.prepend, cons_append, cons_append, scanString.eq_def]
    simp [hquote, hslash, hbreak, ih hinner, Split.prepend]

/-- Template text ends at its closing sign, whatever follows. -/
theorem scanTemplate_append {opens : Bool} (h : scanTemplate cs = some (split, opens)) :
    scanTemplate (split.1 ++ rest) = some ((split.1, rest), opens) := by
  fun_induction scanTemplate cs generalizing split with
  | case1 | case2 => cases h
  | case3 c hslash d cs ih =>
    obtain ⟨inner, hinner, heq⟩ := Option.map_eq_some_iff.1 h
    cases heq
    rw [Split.prepend, cons_append, cons_append, scanTemplate.eq_def]
    simp [hslash, ih hinner, Split.prepend]
  | case4 c cs hslash hquote =>
    cases h
    rw [cons_append, scanTemplate.eq_def]
    simp [hslash, hquote]
  | case5 cs =>
    cases h
    rfl
  | case6 c hslash hquote cs hsubstitution ih =>
    obtain ⟨⟨inner, opens⟩, hinner, heq⟩ := Option.map_eq_some_iff.1 h
    cases heq
    -- what was split off behind `c` has a character, so the test for a substitution sees the same
    obtain ⟨d, later, hlater⟩ : ∃ d later, inner.1 = d :: later := by
      obtain ⟨front, hfront⟩ := (scanTemplate_split hinner).2
      refine exists_cons_of_ne_nil fun hnil => ?_
      rw [hnil] at hfront
      cases opens <;> simp at hfront
    have hcs : cs = d :: (later ++ inner.2) := by
      rw [← (scanTemplate_split hinner).1, hlater, cons_append]
    have hagain := ih hinner
    rw [hlater, cons_append] at hagain
    rw [Split.prepend, hlater, cons_append, scanTemplate.eq_def]
    dsimp only [singleton_append, cons_append, nil_append]
    rw [if_neg hslash, if_neg hquote]
    split
    case h_1 hc hd =>
      cases hd
      exact absurd hcs (hsubstitution _ rfl)
    case h_2 =>
      rw [hagain]
      rfl

/-- The body of a regular expression ends at its closing slash, whatever follows. -/
theorem scanRegexBody_append {inClass : Bool} (h : scanRegexBody inClass cs = some split) :
    scanRegexBody inClass (split.1 ++ rest) = some (split.1, rest) := by
  fun_induction scanRegexBody inClass cs generalizing split with
  | case1 | case2 | case3 => cases h
  | case4 inClass c hbreak hslash d cs ih =>
    obtain ⟨inner, hinner, rfl⟩ := Option.map_eq_some_iff.1 h
    rw [Split.prepend, cons_append, cons_append, scanRegexBody.eq_def]
    simp [hbreak, hslash, ih hinner, Split.prepend]
  | case5 inClass c cs hbreak hslash hclose =>
    cases h
    rw [cons_append, scanRegexBody.eq_def]
    simp [hbreak, hslash, hclose]
  | case6 inClass c cs hbreak hslash hclose inClass' =>
    rename_i ih
    obtain ⟨inner, hinner, rfl⟩ := Option.map_eq_some_iff.1 h
    rw [Split.prepend, cons_append, cons_append, scanRegexBody.eq_def]
    dsimp only
    rw [if_neg hbreak, if_neg hslash, if_neg hclose, nil_append, ih hinner]
    rfl

/-- A regular expression ends behind its flags. -/
theorem scanRegex_append (h : scanRegex cs = some split)
    (hrest : ∀ c ∈ rest.head?, isNamePart c = false) :
    scanRegex (split.1 ++ rest) = some (split.1, rest) := by
  obtain ⟨body, hbody, rfl⟩ := Option.map_eq_some_iff.1 h
  rw [scanRegex, Split.prepend, append_assoc, scanRegexBody_append hbody, Option.map_some,
    span_append span_forall hrest]
  rfl

end

/-! ## Numbers -/

/-- What holds of the first character of two texts in a row. -/
theorem forall_head?_append {p : Char → Prop} {front back : List Char}
    (hfront : ∀ c ∈ front.head?, p c) (hback : front = [] → ∀ c ∈ back.head?, p c) :
    ∀ c ∈ (front ++ back).head?, p c := by
  cases front with
  | nil => exact hback rfl
  | cons c cs => exact hfront

/-- Does a fraction end before `c`? -/
def fractionStops (text : List Char) (c : Char) : Bool :=
  if text.isEmpty then c != '.' else !isSpacedDigit c

/-- Does an exponent end before `c`? -/
def exponentStops (text : List Char) (c : Char) : Bool :=
  if text.isEmpty then c != 'e' && c != 'E' else !c.isDigit

section
variable {cs rest : List Char} {split : Split}

/-- A fraction ends before what follows it. -/
theorem scanFraction_stop (h : scanFraction cs = split) :
    ∀ c ∈ split.2.head?, fractionStops split.1 c = true := by
  subst h
  unfold scanFraction
  split
  case h_1 later =>
    intro c hc
    simpa [fractionStops, Split.prepend] using span_stop c hc
  case h_2 hpoint =>
    intro c hc
    cases cs with
    | nil => cases hc
    | cons d later =>
      cases hc
      simpa [fractionStops] using fun hd => hpoint later (by rw [hd])

/-- A fraction starts with a point. -/
theorem scanFraction_head (h : scanFraction cs = split) : ∀ c ∈ split.1.head?, c = '.' := by
  subst h
  unfold scanFraction
  split
  case h_1 =>
    rintro c ⟨⟩
    rfl
  case h_2 => rintro c ⟨⟩

/-- A fraction ends where it did if it ends before what follows now. -/
theorem scanFraction_append (h : scanFraction cs = split)
    (hrest : ∀ c ∈ rest.head?, fractionStops split.1 c = true) :
    scanFraction (split.1 ++ rest) = (split.1, rest) := by
  subst h
  unfold scanFraction at hrest ⊢
  split at hrest
  case h_1 later =>
    have hspan : ((later.span isSpacedDigit).1 ++ rest).span isSpacedDigit =
        ((later.span isSpacedDigit).1, rest) :=
      span_append span_forall fun c hc => by
        simpa [fractionStops, Split.prepend] using hrest c hc
    change Split.prepend ['.'] (((later.span isSpacedDigit).1 ++ rest).span isSpacedDigit) = _
    rw [hspan]
    rfl
  case h_2 =>
    cases rest with
    | nil => rfl
    | cons c later =>
      have hc : c ≠ '.' := by simpa [fractionStops] using hrest c rfl
      split
      · simp_all
      · rfl

/-- An exponent ends before what follows it. -/
theorem scanExponent_stop (h : scanExponent cs = .ok split) :
    ∀ c ∈ split.2.head?, exponentStops split.1 c = true := by
  rcases scanExponent_cases h with ⟨rfl, hmark⟩ | ⟨mark, sign, digits, -, htext, -, hstop⟩
  · exact fun c hc => by simpa [exponentStops] using hmark c hc
  · exact fun c hc => by simpa [exponentStops, htext] using hstop c hc

/-- No exponent before a character that is no mark. -/
theorem scanExponent_nil (hrest : ∀ c ∈ rest.head?, exponentStops [] c = true) :
    scanExponent rest = .ok ([], rest) := by
  cases rest with
  | nil => rfl
  | cons c later =>
    have hmark : ¬(c == 'e' || c == 'E') = true := by simpa [exponentStops] using hrest c rfl
    rw [scanExponent, if_neg hmark]

/-- An exponent is read up to the end of its digits. -/
theorem scanExponent_cons {mark : Char} {sign digits : List Char} (h : IsExponent mark sign digits)
    (hrest : ∀ c ∈ rest.head?, c.isDigit = false) :
    scanExponent (mark :: (sign ++ digits) ++ rest) = .ok (mark :: (sign ++ digits), rest) := by
  obtain ⟨d, later, rfl⟩ := exists_cons_of_ne_nil h.nonempty
  have hd := h.digits d (.head _)
  have hspan := span_append h.digits hrest
  have hsign : ((sign ++ (d :: later ++ rest)).take 1).filter (fun s => s == '+' || s == '-') =
      sign := by
    have hplus : d ≠ '+' := by rintro rfl; cases hd
    have hminus : d ≠ '-' := by rintro rfl; cases hd
    have := h.sign
    simp only [mem_cons, not_mem_nil, or_false] at this
    rcases this with rfl | rfl | rfl <;> simp [hplus, hminus]
  rw [cons_append, append_assoc, scanExponent, if_pos h.mark]
  dsimp only
  rw [hsign, drop_left]
  dsimp only [cons_append] at hspan ⊢
  rw [if_pos hd, hspan]
  rfl

/-- An exponent ends where it did if it ends before what follows now. -/
theorem scanExponent_append (h : scanExponent cs = .ok split)
    (hrest : ∀ c ∈ rest.head?, exponentStops split.1 c = true) :
    scanExponent (split.1 ++ rest) = .ok (split.1, rest) := by
  rcases scanExponent_cases h with ⟨rfl, -⟩ | ⟨mark, sign, digits, hparts, htext, -⟩
  · exact scanExponent_nil hrest
  · rw [htext] at hrest ⊢
    exact scanExponent_cons hparts fun c hc => by simpa [exponentStops] using hrest c hc

end

/-- May `c` go on with the number `text`? -/
def inNumber (text : List Char) (c : Char) : Bool :=
  isNamePart c || (c == '.' && text.all isSpacedDigit)

/-- The characters before which a scanner takes `text` for a number and no more. -/
structure NumberEnds (scan : List Char → Except NumberCause Split) (text tail : List Char)
    (stops : Char → Bool) : Prop where
  /-- It ended there at first. -/
  tail : ∀ c ∈ tail.head?, stops c = true
  /-- It ends before what no number holds. -/
  free : ∀ c, inNumber text c = false → stops c = true
  /-- It ends there whatever follows the character. -/
  scan : ∀ rest : List Char, (∀ c ∈ rest.head?, stops c = true) →
    scan (text ++ rest) = .ok (text, rest)

/-- Does a decimal number end before `c`? -/
def decimalStops (fraction exponent : List Char) (c : Char) : Bool :=
  exponentStops exponent c &&
    (!exponent.isEmpty || (fractionStops fraction c && (!fraction.isEmpty || !isSpacedDigit c)))

/-- When a decimal number ends, part by part. -/
theorem decimalStops_iff {fraction exponent : List Char} :
    decimalStops fraction exponent c = true ↔ exponentStops exponent c = true ∧
      (exponent = [] → fractionStops fraction c = true ∧
        (fraction = [] → isSpacedDigit c = false)) := by
  cases exponent <;> cases fraction <;> simp [decimalStops]

/-- What is no name part is no digit. -/
theorem isDigit_of_not_namePart (h : isNamePart c = false) : c.isDigit = false := by
  simp only [isNamePart, Bool.or_eq_false_iff] at h
  exact h.1.2

/-- A digit or separator stands in names. -/
theorem isNamePart_of_spacedDigit (h : isSpacedDigit c = true) : isNamePart c = true := by
  simp only [isSpacedDigit, Bool.or_eq_true, beq_iff_eq] at h
  rcases h with h | rfl
  · simp [isNamePart, h]
  · decide

section
variable {cs rest : List Char} {split : Split}

variable {c : Char}

/-- What is no name part ends a decimal number, unless it is a point that the number lacks. -/
theorem decimalStops_of_free {whole fraction exponent : List Char}
    (hwhole : ∀ d ∈ whole, isSpacedDigit d = true)
    (hc : inNumber (whole ++ fraction ++ exponent) c = false) :
    decimalStops fraction exponent c = true := by
  obtain ⟨hpart, hpoint⟩ := Bool.or_eq_false_iff.1 hc
  have hne : ∀ d, isNamePart d = true → c ≠ d := by
    rintro d hd rfl
    rw [hpart] at hd
    cases hd
  have hdigit := isDigit_of_not_namePart hpart
  have hspaced : isSpacedDigit c = false :=
    Bool.eq_false_iff.2 fun h => hne c (isNamePart_of_spacedDigit h) rfl
  have hmark : c ≠ 'e' ∧ c ≠ 'E' := ⟨hne 'e' (by decide), hne 'E' (by decide)⟩
  have hexponent : exponentStops exponent c = true := by
    simp only [exponentStops]
    split <;> simp [hdigit, hmark]
  refine decimalStops_iff.2 ⟨hexponent, fun hnil => ⟨?_, fun _ => hspaced⟩⟩
  cases fraction with
  | cons point later => simp [fractionStops, hspaced]
  | nil =>
    have hall : whole.all isSpacedDigit = true := all_eq_true.2 hwhole
    have hc : c ≠ '.' := by simpa [hall, hnil] using hpoint
    simp [fractionStops, hc]

/-- An exponent starts with its mark. -/
theorem scanExponent_head (h : scanExponent cs = .ok split) :
    ∀ c ∈ split.1.head?, c = 'e' ∨ c = 'E' := by
  rcases scanExponent_cases h with ⟨rfl, -⟩ | ⟨mark, sign, digits, hparts, htext, -⟩
  · rintro c ⟨⟩
  · rw [htext]
    rintro c ⟨⟩
    simpa using hparts.mark

/-- A decimal number is split off if it ends before what follows. -/
theorem scanDecimal_append {cs' whole : List Char} {fraction exponent : Split}
    (hwhole : ∀ c ∈ whole, isSpacedDigit c = true) (hfraction : scanFraction cs = fraction)
    (hexponent : scanExponent cs' = .ok exponent)
    (hrest : ∀ c ∈ rest.head?, decimalStops fraction.1 exponent.1 c = true) :
    scanDecimal (whole ++ fraction.1 ++ exponent.1 ++ rest) =
      .ok (whole ++ fraction.1 ++ exponent.1, rest) := by
  have hmark := scanExponent_head hexponent
  have hstop := fun c hc => decimalStops_iff.1 (hrest c hc)
  have hexponent' := scanExponent_append hexponent fun c hc => (hstop c hc).1
  have hfraction' : scanFraction (fraction.1 ++ (exponent.1 ++ rest)) =
      (fraction.1, exponent.1 ++ rest) := by
    refine scanFraction_append hfraction (forall_head?_append (fun c hc => ?_) ?_)
    · rw [fractionStops]
      rcases hmark c hc with rfl | rfl <;> split <;> rfl
    · exact fun hnil c hc => ((hstop c hc).2 hnil).1
  have hwhole' : (whole ++ (fraction.1 ++ (exponent.1 ++ rest))).span isSpacedDigit =
      (whole, fraction.1 ++ (exponent.1 ++ rest)) := by
    refine span_append hwhole (forall_head?_append (fun c hc => ?_) fun hnil =>
      forall_head?_append (fun c hc => ?_) fun hnil' c hc => ((hstop c hc).2 hnil').2 hnil)
    · rw [scanFraction_head hfraction c hc]
      rfl
    · rcases hmark c hc with rfl | rfl <;> rfl
  rw [scanDecimal, append_assoc, append_assoc, hwhole']
  dsimp only
  rw [hfraction', hexponent']
  rfl

/-- A decimal number ends before what follows it. -/
theorem scanDecimal_ends (h : scanDecimal cs = .ok split) :
    ∃ stops, NumberEnds scanDecimal split.1 split.2 stops := by
  obtain ⟨exponent, hexponent, heq⟩ := bind_eq_ok.1 h
  cases heq
  refine ⟨decimalStops (scanFraction (cs.span isSpacedDigit).2).1 exponent.1, fun c hc => ?_,
    fun c hc => decimalStops_of_free span_forall hc,
    fun rest hrest => scanDecimal_append span_forall rfl hexponent hrest⟩
  refine decimalStops_iff.2 ⟨scanExponent_stop hexponent c hc, fun hnil => ?_⟩
  rcases scanExponent_cases hexponent with ⟨rfl, -⟩ | ⟨mark, sign, digits, -, htext, -⟩
  · refine ⟨scanFraction_stop rfl c hc, fun hnil' => ?_⟩
    have hsplit := (solidSplit_scanFraction (cs.span isSpacedDigit).2).1
    rw [hnil', nil_append] at hsplit
    rw [Split.prepend, hsplit] at hc
    exact span_stop c hc
  · rw [hnil] at htext
    cases htext

/-- A hexadecimal digit stands in names. -/
theorem isNamePart_of_hexDigit (h : isHexDigit c = true) : isNamePart c = true := by
  have hpart : c.isDigit = true ∨ c.isAlpha = true := by
    simp only [isHexDigit, Bool.or_eq_true, Bool.and_eq_true, decide_eq_true_eq] at h
    rcases h with h | ⟨hlow, hhigh⟩
    · exact .inl h
    · refine .inr ?_
      unfold Char.toLower at hlow hhigh
      split at hlow
      case isTrue hupper =>
        have hupper : c.isUpper = true := decide_eq_true hupper
        exact Bool.or_eq_true_iff.2 (.inl hupper)
      case isFalse hupper =>
        rw [dif_neg hupper] at hhigh
        have hlower : c.isLower = true :=
          Bool.and_eq_true_iff.2 ⟨decide_eq_true hlow,
            decide_eq_true (UInt32.le_trans hhigh (by decide))⟩
        exact Bool.or_eq_true_iff.2 (.inr hlower)
  rcases hpart with h | h <;> simp [isNamePart, isNameStart, h]

/-- The digits after a radix letter stand in names. -/
theorem isNamePart_of_radixDigit {radix : Char} (h : isRadixDigit radix c = true) :
    isNamePart c = true := by
  unfold isRadixDigit at h
  rcases Bool.or_eq_true_iff.1 h with h | h
  · rw [beq_iff_eq.1 h]
    decide
  · split at h
    case h_1 =>
      rcases Bool.or_eq_true_iff.1 h with h | h <;> rw [beq_iff_eq.1 h] <;> decide
    case h_2 =>
      have hdigit : c.isDigit = true := by
        obtain ⟨hlow, hhigh⟩ := Bool.and_eq_true_iff.1 h
        exact Bool.and_eq_true_iff.2
          ⟨hlow, decide_eq_true (UInt32.le_trans (of_decide_eq_true hhigh) (by decide))⟩
      simp [isNamePart, hdigit]
    case h_3 => exact isNamePart_of_hexDigit h

/-- A radix letter stands in names. -/
theorem radix_namePart : ("xXoObB".toList.all isNamePart) = true := by
  decide

/-- The digits of a number end before what follows them. -/
theorem scanMagnitude_ends (hne : split.1 ≠ []) (h : scanMagnitude cs = .ok split) :
    ∃ stops, NumberEnds scanMagnitude split.1 split.2 stops := by
  have hsplit := (solidSplit_scanMagnitude h).1
  rcases scanMagnitude_cases h with ⟨radix, later, rfl, hradix, hdigits, rfl⟩ | ⟨hdecimal, h⟩
  · refine ⟨fun c => !isRadixDigit radix c, fun c hc => ?_, fun c hc => ?_, fun rest hrest => ?_⟩
    · simpa using span_stop c hc
    · obtain ⟨hpart, -⟩ := Bool.or_eq_false_iff.1 hc
      simp only [Bool.not_eq_true']
      refine Bool.eq_false_iff.2 fun hdigit => ?_
      rw [isNamePart_of_radixDigit hdigit] at hpart
      cases hpart
    · have hspan : ((later.span (isRadixDigit radix)).1 ++ rest).span (isRadixDigit radix) =
          ((later.span (isRadixDigit radix)).1, rest) :=
        span_append span_forall fun c hc => by simpa using hrest c hc
      simp only [Split.prepend, cons_append, nil_append]
      rw [scanMagnitude_radix hradix, hspan, if_neg (Bool.eq_false_iff.1 hdigits)]
      rfl
  · obtain ⟨stops, htail, hfree, hscan⟩ := scanDecimal_ends h
    -- a zero also has to end before a radix letter
    refine ⟨fun c => stops c && !(split.1 == ['0'] && "xXoObB".toList.contains c), fun c hc => ?_,
      fun c hc => ?_, fun rest hrest => ?_⟩
    · have hzero : split.1 = ['0'] → "xXoObB".toList.contains c = false := by
        intro hzero
        obtain ⟨later, hlater⟩ := head?_eq_some_iff.1 hc
        refine hdecimal c later ?_
        rw [← hsplit, hzero, hlater]
        rfl
      simp only [htail c hc, Bool.true_and, Bool.not_eq_true', Bool.and_eq_false_imp, beq_iff_eq]
      exact hzero
    · have hletter : "xXoObB".toList.contains c = false := by
        refine Bool.eq_false_iff.2 fun hcontains => ?_
        have hpart := all_eq_true.1 radix_namePart c (contains_iff_mem.1 hcontains)
        rw [inNumber, hpart] at hc
        cases hc
      simp only [hfree c hc, hletter, Bool.and_false, Bool.not_false, Bool.and_self]
    · rw [scanMagnitude_decimal, hscan rest fun c hc => (Bool.and_eq_true_iff.1 (hrest c hc)).1]
      intro radix later hrest'
      cases htext : split.1 with
      | nil => exact absurd htext hne
      | cons d text =>
        rw [htext] at hrest' hsplit
        cases text with
        | nil =>
          cases hrest'
          have := (Bool.and_eq_true_iff.1 (hrest radix rfl)).2
          simpa [htext] using this
        | cons d' text =>
          cases hrest'
          exact hdecimal radix _ hsplit.symm

/-- A number ends before what follows it. -/
theorem scanNumber_ends (hstart : c.isDigit = true ∨ c = '.')
    (h : scanNumber (c :: cs) = .ok split) :
    ∃ stops, NumberEnds scanNumber split.1 split.2 stops := by
  obtain ⟨magnitude, hmagnitude, h⟩ := bind_eq_ok.1 h
  obtain ⟨stops, htail, hfree, hscan⟩ := scanMagnitude_ends (scanMagnitude_ne_nil hstart hmagnitude)
    hmagnitude
  split at h
  case h_1 later hmark =>
    cases h
    refine ⟨fun _ => true, fun _ _ => rfl, fun _ _ => rfl, fun rest _ => ?_⟩
    have := hscan ('n' :: rest) fun c hc => htail c (by rw [hmark]; exact hc)
    rw [scanNumber, append_assoc, singleton_append, this]
    rfl
  case h_2 hmark =>
    cases h
    refine ⟨fun c => stops c && c != 'n', fun c hc => ?_, fun c hc => ?_, fun rest hrest => ?_⟩
    · have hc' : c ≠ 'n' := by
        rintro rfl
        obtain ⟨later, hlater⟩ := head?_eq_some_iff.1 hc
        exact hmark later hlater
      simp [htail c hc, hc']
    · have hc' : c ≠ 'n' := by
        rintro rfl
        cases hc
      simp [hfree c hc, hc']
    · have hagain := hscan rest fun c hc => (Bool.and_eq_true_iff.1 (hrest c hc)).1
      refine bind_eq_ok.2 ⟨_, hagain, ?_⟩
      split
      case h_1 later hlater =>
        change rest = 'n' :: later at hlater
        simp [hlater] at hrest
      case h_2 => rfl

end

/-- A number that starts with a point goes on with the digit behind it. -/
theorem scanNumber_point {d : Char} {split : Split} (hd : d.isDigit = true)
    (h : scanNumber ('.' :: d :: cs) = .ok split) : ∃ later, split.1 = '.' :: d :: later := by
  have hwhole : ('.' :: d :: cs).span isSpacedDigit = ([], '.' :: d :: cs) := by
    rw [span_eq_takeWhile_dropWhile]
    rfl
  have hfraction : (scanFraction ('.' :: d :: cs)).1 = '.' :: d :: (cs.span isSpacedDigit).1 := by
    change '.' :: ((d :: cs).span isSpacedDigit).1 = _
    rw [span_cons (by simp [isSpacedDigit, hd])]
  obtain ⟨magnitude, hmagnitude, h⟩ := bind_eq_ok.1 h
  rw [scanMagnitude_decimal (by intro radix later heq; cases heq)] at hmagnitude
  obtain ⟨exponent, -, heq⟩ := bind_eq_ok.1 hmagnitude
  cases heq
  rw [Split.prepend, hwhole, hfraction] at h
  split at h <;> cases h <;> exact ⟨_, rfl⟩

/-! ## Punctuators -/

/-- Longer punctuators come first, and none comes twice. -/
theorem punctuators_sorted :
    punctuators.Pairwise fun p q => q.toList.length ≤ p.toList.length ∧ p ≠ q := by
  decide

/-- The longest punctuator that fits is taken. -/
theorem scanPunctuator_of_longest (hp : p ∈ punctuators)
    (hfits : punctuatorFits p (p.toList ++ rest) = true)
    (hlongest : ∀ q ∈ punctuators, punctuatorFits q (p.toList ++ rest) = true →
      q.toList.length ≤ p.toList.length) :
    scanPunctuator (p.toList ++ rest) = some (p.toList, rest) := by
  have hfind : punctuators.find? (fun q => punctuatorFits q (p.toList ++ rest)) = some p := by
    obtain ⟨before, after, hsplit⟩ := append_of_mem hp
    have hsorted := punctuators_sorted
    rw [hsplit] at hsorted hlongest ⊢
    refine find?_eq_some_iff_append.2 ⟨hfits, before, after, rfl, fun q hq => ?_⟩
    simp only [Bool.not_eq_true']
    refine Bool.eq_false_iff.2 fun hqfits => ?_
    obtain ⟨hle, hne⟩ := (pairwise_append.1 hsorted).2.2 q hq p (.head _)
    have hge := hlongest q (mem_append_left _ hq) hqfits
    have hstarts := prefix_of_prefix_length_le (prefix_of_fits hqfits)
      (prefix_append p.toList rest) hge
    exact hne (String.toList_injective (hstarts.eq_of_length (Nat.le_antisymm hge hle)))
  rw [scanPunctuator, hfind, Option.map_some, ← String.length_toList, take_left, drop_left]

/-- Does `c` go on with a punctuator? -/
def extendsPunctuator (text : List Char) (c : Char) : Bool :=
  punctuators.any fun p => (text ++ [c]).isPrefixOf p.toList

/-- A punctuator is taken before a character that does not go on with it. -/
theorem scanPunctuator_append (hp : p ∈ punctuators)
    (hrest : ∀ c ∈ rest.head?, extendsPunctuator p.toList c = false ∧
      (p = "?." → c.isDigit = false)) :
    scanPunctuator (p.toList ++ rest) = some (p.toList, rest) := by
  refine scanPunctuator_of_longest hp ?_ fun q hq hfits => ?_
  · have hdigit : (p == "?." && (((p.toList ++ rest).drop 2).head?.map Char.isDigit).getD false) =
        false := by
      by_cases hchain : p = "?."
      · subst hchain
        cases rest with
        | nil => rfl
        | cons c later => simpa using (hrest c rfl).2 rfl
      · simp [hchain]
    rw [punctuatorFits, hdigit, Bool.not_false, Bool.and_true]
    exact isPrefixOf_iff_prefix.2 (prefix_append _ _)
  · refine Nat.le_of_not_lt fun hlt => ?_
    -- a longer one would go on with the first character of the rest
    have hq' := prefix_of_fits hfits
    obtain ⟨more, hmore⟩ := prefix_of_prefix_length_le (prefix_append p.toList rest) hq'
      (Nat.le_of_lt hlt)
    cases more with
    | nil =>
      rw [← hmore, append_nil] at hlt
      exact Nat.lt_irrefl _ hlt
    | cons c more =>
      rw [← hmore, prefix_append_right_inj] at hq'
      obtain ⟨later, rfl⟩ := hq'
      have hextends : extendsPunctuator p.toList c = true := by
        refine any_eq_true.2 ⟨q, hq, isPrefixOf_iff_prefix.2 ⟨more, ?_⟩⟩
        rw [← hmore, append_assoc]
        rfl
      rw [(hrest c rfl).1] at hextends
      cases hextends

/-! ## Tokens -/

/-- Does a token end before the rest of a text? A name and the flags of a regular expression go on
with name parts, a number and a punctuator with what their scanners take; strings and template text
end by themselves. -/
def EndsBefore (kind : TokenKind) (text rest : List Char) : Prop :=
  match kind with
  | .name | .privateName | .regex => ∀ c ∈ rest.head?, isNamePart c = false
  | .number =>
    scanNumber (text ++ rest) = .ok (text, rest) ∧ ∀ c ∈ rest.head?, isNameStart c = false
  | .punctuator => scanPunctuator (text ++ rest) = some (text, rest) ∧
    ∀ c cs, text ++ rest = c :: cs → startsNumber c cs = false ∧ opensComment c cs = false
  | _ => True

/-- A text that is a token somewhere, given the open braces and whether a slash opens a regular
expression, and the open braces after it. -/
inductive IsToken (braces : List Bool) (slashOpens : Bool) :
    TokenKind → List Char → List Bool → Prop where
  | intro {c : Char} {cs : List Char} {kind : TokenKind} {split : Split} {braces' : List Bool}
    (solid : partsTokens c = false) (plain : opensComment c cs = false)
    (here : TokenAt braces slashOpens c cs kind split braces') :
    IsToken braces slashOpens kind split.1 braces'

/-- Does a piece end before the rest of a text? -/
def Piece.EndsBefore (rest : List Char) : Piece → Prop
  | .blank c => partsTokens c = true
  | .comment .block text => ¬['*', '/'] <:+: text
  | .comment .line text => '\n' ∉ text ∧ ∀ c ∈ rest.head?, c = '\n'
  | .comment .hashbang _ => False
  | .token kind text => DocTypes.EndsBefore kind text rest

/-- Every piece ends before what the next ones spell. -/
def Parted : List Piece → Prop
  | [] => True
  | piece :: rest => piece.EndsBefore (spell rest) ∧ Parted rest

/-- The tokens among pieces. -/
def tokensOf (pieces : List Piece) : List (TokenKind × List Char) :=
  pieces.filterMap fun
    | .token kind text => some (kind, text)
    | _ => none

/-- Tokens that follow one another, given the open braces and whether a slash opens a regular
expression. -/
inductive TokenChain : List Bool → Bool → List (TokenKind × List Char) → Prop where
  | nil {braces : List Bool} {slashOpens : Bool} : TokenChain braces slashOpens []
  | cons {braces braces' : List Bool} {slashOpens : Bool} {kind : TokenKind} {text : List Char}
    {tokens : List (TokenKind × List Char)} (here : IsToken braces slashOpens kind text braces')
    (later : TokenChain braces' (slashOpensAfter kind (String.ofList text)) tokens) :
    TokenChain braces slashOpens ((kind, text) :: tokens)

/-- No punctuator starts like a number or a comment, but for those of one character. -/
theorem punctuators_start : punctuators.all (fun p =>
    match p.toList with
    | [] => false
    | [c] => !c.isDigit && (c != '.' || p == ".") && (c != '/' || p == "/")
    | c :: d :: _ => !startsNumber c [d] && !opensComment c [d]) = true := by
  decide

/-- A punctuator ends before what does not go on with it. -/
theorem endsBefore_punctuator (hp : p ∈ punctuators)
    (hrest : ∀ c ∈ rest.head?, extendsPunctuator p.toList c = false ∧
      (p = "?." ∨ p = "." → c.isDigit = false) ∧ (p = "/" → c ≠ '/' ∧ c ≠ '*')) :
    EndsBefore .punctuator p.toList rest := by
  refine ⟨scanPunctuator_append hp fun c hc => ⟨(hrest c hc).1, fun h => (hrest c hc).2.1 (.inl h)⟩,
    fun c cs hcs => ?_⟩
  have hstart := all_eq_true.1 punctuators_start p hp
  split at hstart
  case h_1 => cases hstart
  case h_2 c' hc' =>
    rw [hc'] at hcs
    cases hcs
    simp only [Bool.and_eq_true, Bool.not_eq_true', Bool.or_eq_true, bne_iff_ne,
      beq_iff_eq] at hstart
    obtain ⟨⟨hdigit, hpoint⟩, hslash⟩ := hstart
    cases rest with
    | nil => simp [startsNumber, opensComment, hdigit]
    | cons d later =>
      obtain ⟨-, hd, hd'⟩ := hrest d rfl
      constructor
      · rcases hpoint with hpoint | rfl
        · simp [startsNumber, hdigit, hpoint]
        · simp [startsNumber, hdigit, hd (.inr rfl)]
      · rcases hslash with hslash | rfl
        · simp [opensComment, hslash]
        · simp [opensComment, hd' rfl]
  case h_3 c' d later hc' =>
    rw [hc'] at hcs
    cases hcs
    simp only [Bool.and_eq_true, Bool.not_eq_true'] at hstart
    exact hstart

/-- Is `c` a character that may go on with a token? -/
def goesOn (c : Char) : Bool :=
  isNamePart c || c == '/' || punctuators.any fun p => (p.toList.drop 1).contains c

/-- What a character is not that goes on with no token. -/
theorem goesOn_eq_false (h : goesOn c = false) : isNamePart c = false ∧ c ≠ '/' ∧
    ∀ p ∈ punctuators, c ∉ p.toList.drop 1 := by
  simp only [goesOn, Bool.or_eq_false_iff, any_eq_false, beq_eq_false_iff_ne] at h
  exact ⟨h.1.1, h.1.2, fun p hp hmem => h.2 p hp (contains_iff_mem.2 hmem)⟩

/-- Every punctuator has a character. -/
theorem punctuator_ne_nil (hp : p ∈ punctuators) : p.toList ≠ [] := by
  intro hnil
  have := all_eq_true.1 punctuators_solid p hp
  simp [String.toList_eq_nil_iff.1 hnil] at this

/-- What goes on with no token goes on with no punctuator. -/
theorem extendsPunctuator_of_free (hp : p ∈ punctuators) (h : goesOn c = false) :
    extendsPunctuator p.toList c = false := by
  refine any_eq_false.2 fun q hq hstarts => ?_
  obtain ⟨more, hmore⟩ := isPrefixOf_iff_prefix.1 hstarts
  obtain ⟨d, later, hlater⟩ := exists_cons_of_ne_nil (punctuator_ne_nil hp)
  refine (goesOn_eq_false h).2.2 q hq ?_
  rw [← hmore, hlater]
  simp

section
variable {braces braces' : List Bool} {slashOpens : Bool} {c : Char} {cs rest : List Char}
  {kind : TokenKind} {split : Split}

/-- A token stands as well before any other text that does not go on with it. -/
theorem TokenAt.append (h : TokenAt braces slashOpens c cs kind split braces')
    (hrest : EndsBefore kind split.1 rest) : ∃ later, split.1 = c :: later ∧
      TokenAt braces slashOpens c (later ++ rest) kind (split.1, rest) braces' := by
  obtain ⟨later, hlater⟩ := h.starts
  refine ⟨later, hlater, ?_⟩
  cases h with
  | name start =>
    have hscan : scanName (c :: (later ++ rest)) = ((scanName (c :: cs)).1, rest) := by
      rw [← cons_append, ← hlater]
      exact span_append span_forall hrest
    rw [← hscan]
    exact .name start
  | privateName hash start =>
    cases hlater
    have hscan : scanName ((scanName cs).1 ++ rest) = ((scanName cs).1, rest) :=
      span_append span_forall hrest
    have hstart : (((scanName cs).1 ++ rest).head?.map isNameStart).getD false = true := by
      cases cs with
      | nil => cases start
      | cons d ds =>
        rw [scanName, span_cons (isNamePart_of_start start)]
        exact start
    have hagain : TokenAt braces slashOpens c ((scanName cs).1 ++ rest) .privateName _ braces :=
      .privateName hash hstart
    rwa [hscan] at hagain
  | number start other scan stop =>
    have hnext : (rest.head?.map isNameStart).getD false = false := by
      cases rest with
      | nil => rfl
      | cons d ds => exact hrest.2 d rfl
    have hstart : startsNumber c (later ++ rest) = true := by
      simp only [startsNumber, Bool.or_eq_true, Bool.and_eq_true, beq_iff_eq] at start ⊢
      refine start.imp_right ?_
      rintro ⟨rfl, hdigit⟩
      cases cs with
      | nil => cases hdigit
      | cons d ds =>
        obtain ⟨more, hmore⟩ := scanNumber_point hdigit scan
        cases hlater.symm.trans hmore
        exact ⟨rfl, hdigit⟩
    have hscan := hrest.1
    rw [hlater, cons_append] at hscan
    rw [hlater]
    exact .number hstart other hscan hnext
  | string quote scan =>
    cases hlater
    exact .string quote (scanString_append scan)
  | template quote scan =>
    cases hlater
    exact .template quote (scanTemplate_append scan)
  | resume brace inner scan =>
    cases hlater
    exact .resume brace inner (scanTemplate_append scan)
  | regex slash opens scan =>
    cases hlater
    exact .regex slash opens (scanRegex_append scan hrest)
  | punctuator other signs noNumber noRegex noTemplate scan =>
    have hcs : split.1 ++ rest = c :: (later ++ rest) := by rw [hlater, cons_append]
    have hscan := hrest.1
    rw [hcs] at hscan
    exact .punctuator other signs (hrest.2 _ _ hcs).1 noRegex noTemplate hscan

/-- What a token takes of a slash and the text behind it does not open a comment. -/
theorem TokenAt.not_opensComment {later : List Char}
    (h : TokenAt braces slashOpens c cs kind split braces') (hlater : split.1 = c :: later)
    (hplain : opensComment c cs = false) (hrest : EndsBefore kind split.1 rest) :
    opensComment c (later ++ rest) = false := by
  have happend := h.split_append
  rw [hlater, cons_append, List.cons.injEq] at happend
  cases later with
  | cons d later =>
    -- the character behind the first is the token's own
    rw [← happend.2] at hplain
    exact hplain
  | nil =>
    cases h with
    | name start =>
      rw [opensComment, beq_eq_false_iff_ne.2, Bool.false_and]
      rintro rfl
      cases start
    | privateName hash start => subst hash; rfl
    | number start other scan stop =>
      rw [opensComment, beq_eq_false_iff_ne.2, Bool.false_and]
      rintro rfl
      simp [startsNumber] at start
    | string quote scan => rcases quote with rfl | rfl <;> rfl
    | template quote scan => subst quote; rfl
    | resume brace inner scan => subst brace; rfl
    | regex slash opens scan =>
      obtain ⟨body, hbody, rfl⟩ := Option.map_eq_some_iff.1 scan
      obtain ⟨front, hfront⟩ := (scanRegexBody_split hbody).2
      simp [Split.prepend, hfront] at hlater
    | punctuator other signs noNumber noRegex noTemplate scan =>
      exact (hrest.2 c rest (by rw [hlater]; rfl)).2

variable {text : List Char}

/-- A token is the first piece of any text that does not go on with it. -/
theorem IsToken.pieceAt (h : IsToken braces slashOpens kind text braces')
    (hrest : EndsBefore kind text rest) :
    PieceAt braces slashOpens (text ++ rest) (.token kind text) rest braces' := by
  cases h with
  | intro solid plain here =>
    obtain ⟨later, hlater, hagain⟩ := here.append hrest
    have hplain := here.not_opensComment hlater plain hrest
    have := PieceAt.token solid hplain hagain
    rwa [← cons_append, ← hlater] at this

/-- Every token ends before a character that goes on with none. -/
theorem IsToken.endsBefore_of_free (h : IsToken braces slashOpens kind text braces')
    (hrest : ∀ c ∈ rest.head?, goesOn c = false) : EndsBefore kind text rest := by
  have hpart :
    ∀ c ∈ rest.head?, isNamePart c = false := fun c hc => (goesOn_eq_false (hrest c hc)).1
  cases h with
  | @intro c cs _ split _ solid plain here =>
    have happend := here.split_append
    obtain ⟨later, hlater⟩ := here.starts
    cases here with
    | name start | privateName hash start => exact hpart
    | regex slash opens scan => exact hpart
    | string quote scan | template quote scan | resume brace inner scan => trivial
    | number start other scan stop =>
      have hstart : c.isDigit = true ∨ c = '.' := by
        simp only [startsNumber, Bool.or_eq_true, Bool.and_eq_true, beq_iff_eq] at start
        exact start.imp_right And.left
      obtain ⟨stops, hends⟩ := scanNumber_ends hstart scan
      refine ⟨hends.scan rest fun d hd => hends.free d ?_, fun d hd => ?_⟩
      · have hpoint : d ≠ '.' := by
          rintro rfl
          exact absurd (hrest '.' hd) (by decide)
        simp [inNumber, hpart d hd, hpoint]
      · exact Bool.eq_false_iff.2 fun hd' => by
          have := hpart d hd
          rw [isNamePart_of_start hd'] at this
          cases this
    | punctuator other signs noNumber noRegex noTemplate scan =>
      obtain ⟨p, hp, hsplit, -⟩ := (scanPunctuator_split scan).2
      rw [hsplit]
      refine endsBefore_punctuator hp fun d hd => ⟨?_, fun _ => ?_, fun _ => ⟨?_, ?_⟩⟩
      · exact extendsPunctuator_of_free hp (hrest d hd)
      · exact isDigit_of_not_namePart (hpart d hd)
      · exact (goesOn_eq_false (hrest d hd)).2.1
      · rintro rfl
        exact absurd (hrest '*' hd) (by decide)

/-- A block comment ends at the first end mark. -/
theorem scanBlockComment_append (h : ¬['*', '/'] <:+: text) :
    scanBlockComment (text ++ '*' :: '/' :: rest) = some (text ++ ['*', '/'], rest) := by
  induction text with
  | nil => rfl
  | cons d text ih =>
    have hlater := ih fun hwithin => h (hwithin.trans (suffix_cons d text).isInfix)
    rw [cons_append, scanBlockComment, hlater]
    · rfl
    · rintro later rfl heq
      cases text with
      | nil => cases heq
      | cons e text =>
        cases heq
        exact h ⟨[], text, rfl⟩

/-- A piece that is no token is the first piece of any text that does not go on with it. -/
theorem Piece.EndsBefore.pieceAt {piece : Piece} (h : piece.EndsBefore rest)
    (htoken : tokensOf [piece] = []) :
    PieceAt braces slashOpens (piece.chars ++ rest) piece rest braces := by
  cases piece with
  | blank c => exact .blank h
  | token kind text => cases htoken
  | comment kind text =>
    cases kind with
    | block =>
      have hpiece : PieceAt braces slashOpens _ (.comment .block text) rest braces :=
        .block (scanBlockComment_append h)
      simpa [Piece.chars, CommentKind.opening, CommentKind.closing] using hpiece
    | line =>
      have hspan : (text ++ rest).span (· != '\n') = (text, rest) :=
        span_append (fun c hc => bne_iff_ne.2 fun heq => h.1 (heq ▸ hc)) fun c hc => by
          simpa using h.2 c hc
      have hpiece : PieceAt braces slashOpens ('/' :: '/' :: (text ++ rest)) _ _ braces := .line
      rw [hspan] at hpiece
      simpa [Piece.chars, CommentKind.opening, CommentKind.closing] using hpiece
    | hashbang => exact h.elim

/-- The tokens of a text follow one another. -/
theorem Lexes.chain {pieces : List Piece} (h : Lexes braces slashOpens text pieces) :
    TokenChain braces slashOpens (tokensOf pieces) := by
  induction h with
  | done => exact .nil
  | step here later ih =>
    cases here with
    | blank | line | block => exact ih
    | token solid plain htoken => exact .cons (.intro solid plain htoken) ih

/-- Tokens that follow one another, with pieces between them that keep them apart, are the tokens of
the text that the pieces spell. -/
theorem TokenChain.lexes : ∀ {pieces : List Piece} {braces : List Bool} {slashOpens : Bool},
    TokenChain braces slashOpens (tokensOf pieces) → Parted pieces →
      Lexes braces slashOpens (spell pieces) pieces := by
  intro pieces
  induction pieces with
  | nil => exact fun _ _ => .done
  | cons piece rest ih =>
    intro braces slashOpens hchain hparted
    cases piece with
    | token kind text =>
      cases hchain with
      | cons here later => exact .step (here.pieceAt hparted.1) (ih later hparted.2)
    | blank c | comment kind text => exact .step (hparted.1.pieceAt rfl) (ih hchain hparted.2)

end

end DocTypes
