import DocTypes.Proofs.TypeExpr.Gives

/-!
# How printed types start

Readers tell types apart by the next token or two. The first lexeme of a type is one that can start
a type (`canStart`), and it is not an operator unless the type has one before it; if it is a word,
the next lexeme shows that it is no operator and no receiver (`Starts`, `exists_starts`).
-/

namespace DocTypes

open List

open TypeLexeme (sign word)

namespace TypeReader

/-- Can the lexeme start a type? -/
def canStart (lexeme : TypeLexeme) : Bool :=
  match lexeme.kind with
  | .name => TypeToken.isNameText lexeme.text.toList
  | .number => TypeToken.isNumberText lexeme.text.toList
  | .string => lexeme.text.toList.head?.any fun c => c == '"' || c == '\''
  | .punctuator => ["(", "[", "\x7b", "*", "?", "!", "..."].contains lexeme.text
  | .endOfInput => false

variable {lexeme : TypeLexeme} {text : String}

section
variable (h : canStart lexeme = true)
include h

/-- What starts a type is none of the other signs. -/
theorem is_of_canStart (hsign : canStart (sign text) = false)
    (hname : TypeToken.isNameText text.toList = false) : lexeme.is text = false := by
  obtain ⟨kind, text'⟩ := lexeme
  rw [TypeLexeme.is, Bool.and_eq_false_iff, beq_eq_false_iff_ne]
  refine or_iff_not_imp_left.2 fun heq => ?_
  rw [ne_eq, Decidable.not_not] at heq
  subst heq
  cases kind with
  | name =>
    have hname' : TypeToken.isNameText text'.toList = true := h
    rw [hname] at hname'
    cases hname'
  | punctuator =>
    have hsign' : canStart (sign text') = true := h
    rw [hsign] at hsign'
    cases hsign'
  | string | number | endOfInput => rfl

/-- Nothing that can start a type stands for an end. -/
theorem terminators_of_canStart : terminators.contains lexeme.text = false := by
  have hall : (terminators.all fun text =>
      [TypeTokenKind.name, .string, .number, .punctuator, .endOfInput].all fun kind =>
        !canStart ⟨kind, text⟩) = true := by decide
  obtain ⟨kind, text⟩ := lexeme
  rw [← Bool.not_eq_true, contains_iff_mem]
  intro hmem
  have hkind := all_eq_true.1 (all_eq_true.1 hall text hmem) kind (by cases kind <;> decide)
  rw [h] at hkind
  cases hkind

/-- A word that can start a type is a name. -/
theorem eq_word_of_is (hsign : canStart (sign text) = false) (his : lexeme.is text = true) :
    lexeme = word text := by
  obtain ⟨kind, text'⟩ := lexeme
  rw [TypeLexeme.is, Bool.and_eq_true, beq_iff_eq] at his
  obtain ⟨rfl, hkind⟩ := his
  cases kind with
  | name => rfl
  | punctuator =>
    have hsign' : canStart (sign text') = true := h
    rw [hsign] at hsign'
    cases hsign'
  | string | number | endOfInput => cases hkind

/-- A sign that can start a type is a sign. -/
theorem eq_sign_of_is (hname : TypeToken.isNameText text.toList = false)
    (his : lexeme.is text = true) : lexeme = sign text := by
  obtain ⟨kind, text'⟩ := lexeme
  rw [TypeLexeme.is, Bool.and_eq_true, beq_iff_eq] at his
  obtain ⟨rfl, hkind⟩ := his
  cases kind with
  | punctuator => rfl
  | name =>
    have hname' : TypeToken.isNameText text'.toList = true := h
    rw [hname] at hname'
    cases hname'
  | string | number | endOfInput => cases hkind

end

/-- A name is no other text. -/
theorem is_word_of_isNameText {label : String} (h : TypeToken.isNameText label.toList = true)
    (htext : TypeToken.isNameText text.toList = false) : (word label).is text = false := by
  rw [TypeLexeme.is_word, beq_eq_false_iff_ne]
  rintro rfl
  rw [h] at htext
  cases htext

end TypeReader

namespace TypeExpr

open TypeReader

/-- Is it read as a type that no operator stands before? -/
def isPostfix : TypeExpr → Bool
  | .unknown | .union _ | .intersection _ | .field .. | .parameter .. | .variadic _ | .typeof _
  | .keyof _ => false
  | .nullable _ leading | .notNullable _ leading => !leading
  | _ => true

/-- A type to which a sign after it applies has no operator before it. -/
theorem isPostfix_of_isClosed {type : TypeExpr} (h : type.isClosed = true) :
    type.isPostfix = true := by
  cases type <;> first | rfl | exact h | cases h

theorem isPostfix_of_isQuestioned {type : TypeExpr} (h : type.isQuestioned = true) :
    type.isPostfix = true := by
  cases type <;> first | exact h | cases h

/-- The part that the text of a type starts with. -/
def lead : TypeExpr → Option TypeExpr
  | .union (e :: _) => if e.isArrow then none else some e
  | .intersection (e :: _) => if e.isUnion || e.isArrow then none else some e
  | .generic head _ _ => some head
  | .array e => if e.isPrefixed || e.isLow then none else some e
  | .nullable e leading | .notNullable e leading => if leading || e.isLow then none else some e
  | .optional e => if e.isLow then none else some e
  | _ => none

section
variable {type e : TypeExpr}

theorem mem_parts_of_lead (h : type.lead = some e) : e ∈ type.parts := by
  cases type with
  | union elements | intersection elements =>
    cases elements with
    | nil => cases h
    | cons first rest =>
      simp only [lead, Option.ite_none_left_eq_some, Option.some.injEq] at h
      rw [← h.2]
      exact .head _
  | generic head arguments dotted =>
    cases h
    exact .head _
  | array | nullable | notNullable | optional =>
    simp only [lead, Option.ite_none_left_eq_some, Option.some.injEq] at h
    rw [← h.2]
    exact .head _
  | _ => cases h

/-- What a type starts with is a type. -/
theorem isType_of_lead (hformed : type.layerFormed = true) (h : type.lead = some e) :
    e.isType = true := by
  cases type with
  | union elements | intersection elements =>
    simp only [layerFormed, Bool.and_eq_true, all_eq_true] at hformed
    have := hformed.2 e (mem_parts_of_lead h)
    rw [isOperand, Bool.and_eq_true] at this
    exact this.1
  | generic head arguments dotted =>
    cases h
    simp only [layerFormed, Bool.and_eq_true] at hformed
    exact hformed.1
  | array element | optional element =>
    cases mem_singleton.1 (mem_parts_of_lead h)
    exact hformed
  | nullable element leading | notNullable element leading =>
    cases mem_singleton.1 (mem_parts_of_lead h)
    simp only [layerFormed] at hformed
    cases leading with
    | true => cases h
    | false => exact hformed
  | _ => cases h

/-- A type that no operator stands before starts with such a type. -/
theorem isPostfix_of_lead (hgrouped : type.layerGrouped = true) (h : type.lead = some e)
    (htype : type.isPostfix = true) : e.isPostfix = true ∧ type.opening = e.opening := by
  cases type with
  | generic head arguments dotted =>
    cases h
    simp only [layerGrouped, Bool.and_eq_true] at hgrouped
    exact ⟨isPostfix_of_isClosed hgrouped.1.1, rfl⟩
  | array element | nullable element leading | notNullable element leading =>
    simp only [lead, Option.ite_none_left_eq_some, Option.some.injEq, Bool.not_eq_true] at h
    obtain ⟨hloose, rfl⟩ := h
    simp only [layerGrouped, hloose, Bool.false_or] at hgrouped
    exact ⟨isPostfix_of_isClosed hgrouped, by simp [opening, hloose]⟩
  | optional element =>
    simp only [lead, Option.ite_none_left_eq_some, Option.some.injEq, Bool.not_eq_true] at h
    obtain ⟨hloose, rfl⟩ := h
    simp only [layerGrouped, hloose, Bool.false_or, Bool.or_eq_true] at hgrouped
    exact ⟨hgrouped.elim isPostfix_of_isClosed isPostfix_of_isQuestioned, by simp [opening, hloose]⟩
  | union | intersection => cases htype
  | _ => cases h

/-- The text of a type that starts with a part goes on with a sign. -/
theorem exists_lexemes_of_lead (hformed : type.layerFormed = true) (h : type.lead = some e) :
    ∃ text more, type.lexemes = e.lexemes ++ sign text :: more ∧
      text ∈ ["|", "&", "<", ".", "[", "?", "!", "="] := by
  cases type with
  | union elements | intersection elements =>
    obtain _ | ⟨first, _ | ⟨second, rest⟩⟩ := elements
    · simp [layerFormed] at hformed
    · simp [layerFormed] at hformed
    · simp only [lead, Option.ite_none_left_eq_some, Option.some.injEq, Bool.not_eq_true] at h
      obtain ⟨hloose, rfl⟩ := h
      exact ⟨_, _, by simp [lexemes, parted, hloose, intercalate_cons_cons]; exact ⟨rfl, rfl⟩,
        by decide⟩
  | generic head arguments dotted =>
    cases h
    cases dotted with
    | false => exact ⟨"<", _, by simp [lexemes]; rfl, by decide⟩
    | true => exact ⟨".", _, by simp [lexemes]; rfl, by decide⟩
  | array element =>
    simp only [lead, Option.ite_none_left_eq_some, Option.some.injEq, Bool.not_eq_true] at h
    obtain ⟨hloose, rfl⟩ := h
    exact ⟨"[", _, by simp [lexemes, hloose]; rfl, by decide⟩
  | nullable element leading =>
    simp only [lead, Option.ite_none_left_eq_some, Option.some.injEq, Bool.not_eq_true,
      Bool.or_eq_false_iff] at h
    obtain ⟨⟨rfl, hloose⟩, rfl⟩ := h
    exact ⟨"?", [], by simp [lexemes, affixedLexemes, hloose], by decide⟩
  | notNullable element leading =>
    simp only [lead, Option.ite_none_left_eq_some, Option.some.injEq, Bool.not_eq_true,
      Bool.or_eq_false_iff] at h
    obtain ⟨⟨rfl, hloose⟩, rfl⟩ := h
    exact ⟨"!", [], by simp [lexemes, affixedLexemes, hloose], by decide⟩
  | optional element =>
    simp only [lead, Option.ite_none_left_eq_some, Option.some.injEq, Bool.not_eq_true] at h
    obtain ⟨hloose, rfl⟩ := h
    exact ⟨"=", [], by simp [lexemes, affixedLexemes, hloose], by decide⟩
  | _ => cases h

variable {text : String}

/-- The word that a type starts with is the first of its text. -/
theorem exists_word_of_opening (h : type.opening = some text) :
    ∃ more, type.lexemes = word text :: more := by
  induction type using byParts with
  | step type ih =>
    cases type with
    | name label =>
      cases hpieces : pieces label with
      | nil => exact absurd hpieces (splitOn_ne_nil _ _)
      | cons first rest =>
        simp only [opening, hpieces, head?_cons, Option.map_some, Option.some.injEq] at h
        exact ⟨_, by simp [lexemes, hpieces, parted_cons, h]; rfl⟩
    | generic head arguments dotted =>
      obtain ⟨more, hmore⟩ := ih head (.head _) h
      exact ⟨_, by simp [lexemes, hmore]; rfl⟩
    | array e | optional e =>
      simp only [opening, Option.ite_none_left_eq_some, Bool.not_eq_true] at h
      obtain ⟨more, hmore⟩ := ih e (.head _) h.2
      exact ⟨_, by simp [lexemes, affixedLexemes, h.1, hmore]; rfl⟩
    | nullable e leading | notNullable e leading =>
      simp only [opening, Option.ite_none_left_eq_some, Bool.not_eq_true, Bool.or_eq_false_iff] at h
      obtain ⟨⟨rfl, hlow⟩, hopening⟩ := h
      obtain ⟨more, hmore⟩ := ih e (.head _) hopening
      exact ⟨_, by simp [lexemes, affixedLexemes, hlow, hmore]; rfl⟩
    | function parameters result arrow constructs =>
      simp only [opening, Option.ite_none_left_eq_some, Bool.not_eq_true, Option.some.injEq] at h
      obtain ⟨rfl, rfl⟩ := h
      exact ⟨_, rfl⟩
    | _ => cases h

theorem isPostfix_of_opening (h : type.opening = some text) :
    type.isPostfix = true := by
  cases type with
  | nullable e leading | notNullable e leading =>
    simp only [opening, Option.ite_none_left_eq_some, Bool.not_eq_true, Bool.or_eq_false_iff] at h
    rw [isPostfix, h.1.1]
    rfl
  | union | intersection | variadic | typeof | keyof | unknown | field | parameter => cases h
  | _ => rfl

theorem canStart_quotedLexeme {quote : Char} (h : TypeToken.isStringText quote text.toList = true) :
    canStart (quotedLexeme quote text) = true := by
  rw [TypeToken.isStringText, Bool.and_eq_true] at h
  simpa [canStart, quotedLexeme] using h.1

/-- How the text of a type starts. -/
structure Starts (type : TypeExpr) (lexeme : TypeLexeme) (more : List TypeLexeme) : Prop where
  lexemes : type.lexemes = lexeme :: more
  starts : canStart lexeme = true
  /-- No operator stands before a type that is read without one. -/
  bare : type.isPostfix = true → lexeme ∉ [sign "?", sign "!", sign "..."]
  keyof : type.isPostfix = true → lexeme = word "keyof" → type.opening = some "keyof"
  /-- A word at the start is followed by a sign, unless it is an operator. -/
  next : ∀ text, lexeme = word text → type.isPostfix = true ∨ text ∉ ["typeof", "keyof"] →
    ∀ lexeme ∈ more.head?, ∃ text, lexeme = sign text ∧ text ≠ ":"

theorem starts_sign (text : String) {more : List TypeLexeme} (h : type.lexemes = sign text :: more)
    (hstart : canStart (sign text) = true)
    (hbare : type.isPostfix = true → text ∉ ["?", "!", "..."]) : type.Starts (sign text) more where
  lexemes := h
  starts := hstart
  bare hpost := by simpa [sign] using hbare hpost
  keyof _ heq := by simp [sign, word] at heq
  next _ heq := by simp [sign, word] at heq

/-- The text of a type that starts with no part. -/
theorem exists_starts_of_no_lead (hformed : type.layerFormed = true) (htype : type.isType = true)
    (h : type.lead = none) : ∃ lexeme more, type.Starts lexeme more := by
  cases type with
  | name text =>
    simp only [layerFormed] at hformed
    cases hpieces : pieces text with
    | nil => exact absurd hpieces (splitOn_ne_nil _ _)
    | cons first rest =>
      rw [hpieces, all_cons, Bool.and_eq_true] at hformed
      refine ⟨word (String.ofList first), _, by simp [TypeExpr.lexemes, hpieces, parted_cons]; rfl,
        by simpa [canStart, word] using hformed.1, by simp [word, sign], ?_, ?_⟩
      · intro _ heq
        simpa [opening, hpieces, word] using heq
      · intro _ _ _ next hnext
        cases rest with
        | nil => cases hnext
        | cons second rest =>
          cases hnext
          exact ⟨".", rfl, by decide⟩
  | any => exact ⟨_, _, starts_sign "*" rfl rfl (fun _ => by decide)⟩
  | unknown => exact ⟨_, _, starts_sign "?" rfl rfl (by rintro ⟨⟩)⟩
  | string text quote =>
    exact ⟨_, _, rfl, canStart_quotedLexeme hformed, by simp [quotedLexeme, sign],
      by simp [quotedLexeme, word], by simp [quotedLexeme, word]⟩
  | number text => exact ⟨_, _, rfl, hformed, by simp [sign], by simp [word], by simp [word]⟩
  | union elements | intersection elements =>
    cases elements with
    | nil => simp [layerFormed] at hformed
    | cons first rest =>
      simp only [lead, ite_eq_left_iff, reduceCtorEq, imp_false, not_not] at h
      exact ⟨_, _, starts_sign "(" (by simp [TypeExpr.lexemes, parted_cons, h]; rfl) rfl
        (by rintro ⟨⟩)⟩
  | generic => cases h
  | array element =>
    simp only [lead, ite_eq_left_iff, reduceCtorEq, imp_false, not_not] at h
    exact ⟨_, _, starts_sign "(" (by simp [TypeExpr.lexemes, h]; rfl) rfl (fun _ => by decide)⟩
  | nullable element leading | notNullable element leading =>
    simp only [lead, ite_eq_left_iff, reduceCtorEq, imp_false, not_not] at h
    cases leading with
    | true => exact ⟨_, _, starts_sign _ rfl rfl (by rintro ⟨⟩)⟩
    | false =>
      simp only [Bool.false_or] at h
      exact ⟨_, _, starts_sign "(" (by simp [TypeExpr.lexemes, affixedLexemes, h]; rfl) rfl
        (fun _ => by decide)⟩
  | optional element =>
    simp only [lead, ite_eq_left_iff, reduceCtorEq, imp_false, not_not] at h
    exact ⟨_, _, starts_sign "(" (by simp [TypeExpr.lexemes, affixedLexemes, h]; rfl) rfl
      (fun _ => by decide)⟩
  | object fields => exact ⟨_, _, starts_sign "\x7b" rfl rfl (fun _ => by decide)⟩
  | tuple elements => exact ⟨_, _, starts_sign "[" rfl rfl (fun _ => by decide)⟩
  | parenthesis element => exact ⟨_, _, starts_sign "(" rfl rfl (fun _ => by decide)⟩
  | function parameters result arrow constructs =>
    cases arrow with
    | false =>
      refine ⟨word "function", _, rfl, by decide, by simp [word, sign], by simp [word], ?_⟩
      intro _ _ _ next hnext
      cases hnext
      exact ⟨"(", rfl, by decide⟩
    | true =>
      cases constructs with
      | false => exact ⟨_, _, starts_sign "(" rfl rfl (fun _ => by decide)⟩
      | true =>
        refine ⟨word "new", _, rfl, by decide, by simp [word, sign], by simp [word], ?_⟩
        intro _ _ _ next hnext
        cases hnext
        exact ⟨"(", rfl, by decide⟩
  | variadic element =>
    cases element <;> exact ⟨_, _, starts_sign "..." rfl rfl (by rintro ⟨⟩)⟩
  | typeof element | keyof element =>
    refine ⟨_, _, rfl, by decide, by rintro ⟨⟩, by rintro ⟨⟩, ?_⟩
    rintro _ heq (hpost | hother)
    · cases hpost
    · cases heq
      exact absurd hother (by decide)
  | field | parameter => cases htype

/-- How the text of a type starts. -/
theorem exists_starts (hformed : type.isFormed = true) (hgrouped : type.isGrouped = true)
    (htype : type.isType = true) : ∃ lexeme more, type.Starts lexeme more := by
  induction type using byParts with
  | step type ih =>
    obtain ⟨hlayer, hparts⟩ := isFormed_iff.1 hformed
    obtain ⟨hlayer', hparts'⟩ := isGrouped_iff.1 hgrouped
    cases hlead : type.lead with
    | none => exact exists_starts_of_no_lead hlayer htype hlead
    | some e =>
      have hmem := mem_parts_of_lead hlead
      obtain ⟨text, later, heq, htext⟩ := exists_lexemes_of_lead hlayer hlead
      obtain ⟨lexeme, more, hstarts⟩ := ih e hmem (hparts e hmem) (hparts' e hmem)
        (isType_of_lead hlayer hlead)
      refine ⟨lexeme, more ++ sign text :: later, by rw [heq, hstarts.lexemes]; rfl, hstarts.starts,
        fun hpost => hstarts.bare (isPostfix_of_lead hlayer' hlead hpost).1,
        fun hpost hword => ?_, fun word hword hkind next hnext => ?_⟩
      · obtain ⟨he, hopening⟩ := isPostfix_of_lead hlayer' hlead hpost
        rw [hopening]
        exact hstarts.keyof he hword
      · cases more with
        | nil =>
          cases hnext
          refine ⟨text, rfl, ?_⟩
          rintro rfl
          exact absurd htext (by decide)
        | cons second more =>
          exact hstarts.next word hword
            (hkind.imp_left fun hpost => (isPostfix_of_lead hlayer' hlead hpost).1) next hnext

end

end TypeExpr

end DocTypes
