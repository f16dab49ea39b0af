import DocTypes.Proofs.TypeExpr.Productions

/-!
# Types whose text says what they are

A formed type is legible if it is also grouped: every operator in its text applies to what it
applies to in the tree. `ReadsBack` says that the text of a type is read back on every level of the
grammar that the type can stand on: as a primary with operators after it (`Trail`), as an operand,
as the operands that `&` joins and as the alternatives that `|` parts. What may follow the text
differs from level to level. After an arrow's result no operator may follow, since the arrow would
take it up (`signsAfter`); after a closed type any operator may (`Trails`).

A type that is read on one level is read on those above: `readsBack_of_trail`,
`readsBack_of_operand`, `chain_of_conjuncts`, `ReadsBack.wholeType`.
-/

namespace DocTypes

open List

open TypeLexeme (sign word)

namespace TypeExpr

/-- A type whose text says what it is. -/
structure Legible (type : TypeExpr) : Prop where
  formed : type.isFormed = true
  grouped : type.isGrouped = true

section
variable {type : TypeExpr}

theorem Legible.part (h : type.Legible) : ∀ e ∈ type.parts, e.Legible :=
  fun e he => ⟨(isFormed_iff.1 h.formed).2 e he, (isGrouped_iff.1 h.grouped).2 e he⟩

theorem Legible.layerFormed (h : type.Legible) : type.layerFormed = true :=
  (isFormed_iff.1 h.formed).1

theorem Legible.layerGrouped (h : type.Legible) : type.layerGrouped = true :=
  (isGrouped_iff.1 h.grouped).1

theorem isType_of_isOperand (h : type.isOperand = true) : type.isType = true := by
  rw [isOperand, Bool.and_eq_true] at h
  exact h.1

/-- The text of a type starts with what can start one. -/
theorem Legible.canStart (h : type.Legible) (htype : type.isType = true) (rest : List TypeLexeme) :
    TypeReader.canStart (TypeLexeme.peek (type.lexemes ++ rest) 0) = true := by
  obtain ⟨lexeme, more, hstarts⟩ := exists_starts h.formed h.grouped htype
  rw [hstarts.lexemes]
  exact hstarts.starts

variable {types : List TypeExpr} {e : TypeExpr}

theorem length_le_parted (mark : String) (h : e ∈ types) :
    e.lexemes.length ≤ (parted mark (types.map lexemes)).length := by
  induction types with
  | nil => cases h
  | cons first rest ih =>
    rw [map_cons, parted_cons, length_append]
    rcases mem_cons.1 h with rfl | hmem
    · omega
    · have hmem' : sign mark :: e.lexemes ∈ (rest.map lexemes).map (sign mark :: ·) :=
        mem_map_of_mem (mem_map_of_mem hmem)
      have hle := List.Sublist.length_le (sublist_flatten_of_mem hmem')
      rw [length_cons] at hle
      rw [flatMap_def]
      omega

theorem isType_of_isField (h : type.isField = true) : type.isType = false := by
  cases type <;> first | rfl | cases h

theorem isType_of_isParameter (h : type.isParameter = true) : type.isType = false := by
  cases type <;> first | rfl | cases h

theorem isType_of_isReceiver (h : type.isReceiver = true) : type.isType = false := by
  cases type <;> first | rfl | cases h

theorem isOperand_covered {loose : Bool} (h : type.isOperand = true) :
    (covered loose type).isOperand = true := by
  cases loose with
  | true => rfl
  | false => exact h

/-- The type of a field or of a parameter can be an operand, and is part of the text. -/
theorem isOperand_of_annotated (h : type.layerFormed = true) (htype : type.isType = false)
    (he : e ∈ type.parts) :
    e.isOperand = true ∧ e.lexemes.length ≤ type.lexemes.length := by
  cases type with
  | field label annotation isOptional readonly quote =>
    have hoperand : annotation.all isOperand = true := by
      cases quote <;> simp only [layerFormed, Bool.and_eq_true] at h <;> exact h.1
    have hmem : annotation = some e := by simpa [parts] using he
    subst hmem
    refine ⟨hoperand, ?_⟩
    simp only [lexemes, lexemesOption, annotatedLexemes, length_append, length_cons]
    omega
  | parameter label annotation isOptional isVariadic =>
    rw [layerFormed, Bool.and_eq_true] at h
    have hmem : annotation = some e := by simpa [parts] using he
    subst hmem
    refine ⟨h.2, ?_⟩
    simp only [lexemes, lexemesOption, annotatedLexemes, length_append, length_cons]
    omega
  | _ => cases htype

/-- What is put in parentheses can stand in them. -/
theorem isOperand_of_isBound (htype : type.isType = true)
    (h : (type.isPrefixed || type.isLow) = true) : type.isOperand = true := by
  have hopening : type.opening = none := by
    cases type with
    | nullable e leading | notNullable e leading =>
      have hleading : leading = true := by simpa [isPrefixed, isLow, isLoose, isArrow] using h
      simp [opening, hleading]
    | function parameters result arrow constructs =>
      have harrow : arrow = true := by simpa [isPrefixed, isLow, isLoose, isArrow] using h
      simp [opening, harrow]
    | union | intersection | variadic | typeof | keyof => rfl
    | _ => simp [isPrefixed, isLow, isLoose, isArrow] at h
  simp [isOperand, htype, hopening]

theorem isOperand_of_isLow (htype : type.isType = true) (h : type.isLow = true) :
    type.isOperand = true :=
  isOperand_of_isBound htype (by rw [h, Bool.or_true])

@[simp]
theorem lexemes_covered (loose : Bool) (type : TypeExpr) :
    (covered loose type).lexemes = enclosed loose type.lexemes := by
  cases loose <;> rfl

theorem length_le_grouped (mark : String) (loose : TypeExpr → Bool) (h : e ∈ types) :
    (covered (loose e) e).lexemes.length ≤ (parted mark (lexemesGrouped loose types)).length := by
  have hmem : covered (loose e) e ∈ types.map fun e => covered (loose e) e := mem_map_of_mem h
  simpa [Function.comp_def] using length_le_parted mark hmem

@[simp]
theorem reread_covered (loose : Bool) (type : TypeExpr) :
    (covered loose type).reread = covered loose type.reread := by
  cases loose <;> rfl

@[simp]
theorem endsArrow_covered (loose : Bool) (type : TypeExpr) :
    (covered loose type).endsArrow = (!loose && type.endsArrow) := by
  cases loose <;> rfl

theorem Legible.parenthesis (h : type.Legible) (hoperand : type.isOperand = true) :
    (TypeExpr.parenthesis type).Legible where
  formed := isFormed_iff.2 ⟨hoperand, by simpa [parts] using h.formed⟩
  grouped := isGrouped_iff.2 ⟨rfl, by simpa [parts] using h.grouped⟩

theorem alternatives_of_not_isUnion (h : type.isUnion = false) :
    type.reread.alternatives = [type.reread] := by
  cases type <;> first | rfl | cases h

theorem conjuncts_of_not_isJoined (h : type.isJoined = false) :
    type.reread.conjuncts = [type.reread] := by
  cases type <;> first | rfl | cases h

/-- Types that each come to one type at least come to as many as they are. -/
theorem length_le_rereadAll (loose : TypeExpr → Bool) {split : TypeExpr → List TypeExpr}
    (h : ∀ e ∈ types, split e.reread ≠ []) :
    types.length ≤ (rereadAll loose split types).length := by
  induction types with
  | nil => exact Nat.zero_le _
  | cons type rest ih =>
    obtain ⟨htype, hrest⟩ := forall_mem_cons.1 h
    have hle := ih hrest
    have hpos : 0 < (if loose type then [TypeExpr.parenthesis type.reread]
        else split type.reread).length := by
      split
      · exact Nat.one_pos
      · exact length_pos_iff.2 htype
    rw [rereadAll, length_append, length_cons]
    omega

theorem rereadAll_single (types : List TypeExpr) :
    rereadAll (fun _ => false) ([·]) types = types.map reread := by
  rw [rereadAll_eq_flatMap]
  exact flatMap_pure_eq_map reread types

theorem endsArrowLast_append (loose : TypeExpr → Bool) (types : List TypeExpr) (last : TypeExpr) :
    endsArrowLast loose (types ++ [last]) = (!loose last && last.endsArrow) := by
  induction types with
  | nil => rfl
  | cons type types ih =>
    cases types with
    | nil => exact ih
    | cons => exact ih

/-- A formed type has alternatives, and two if it is a union. -/
theorem alternatives_reread (h : type.isFormed = true) : type.reread.alternatives ≠ [] ∧
    (type.isUnion = true → 2 ≤ type.reread.alternatives.length ∧
      type.reread = .union type.reread.alternatives) := by
  induction type using byParts with
  | step type ih =>
    obtain ⟨hlayer, hparts⟩ := isFormed_iff.1 h
    cases type with
    | union elements =>
      simp only [layerFormed, Bool.and_eq_true, decide_eq_true_eq] at hlayer
      have hlength : 2 ≤ (rereadAll isArrow alternatives elements).length :=
        Nat.le_trans hlayer.1 (length_le_rereadAll _ fun e he => (ih e he (hparts e he)).1)
      exact ⟨ne_nil_of_length_pos (Nat.zero_lt_of_lt hlength), fun _ => ⟨hlength, rfl⟩⟩
    | _ => exact ⟨cons_ne_nil _ _, by rintro ⟨⟩⟩

/-- A formed type joins types, and two if it is an intersection. -/
theorem conjuncts_reread (h : type.isFormed = true) : type.reread.conjuncts ≠ [] ∧
    (type.isJoined = true → type.isUnion = false → 2 ≤ type.reread.conjuncts.length ∧
      type.reread = .intersection type.reread.conjuncts) := by
  induction type using byParts with
  | step type ih =>
    obtain ⟨hlayer, hparts⟩ := isFormed_iff.1 h
    cases type with
    | intersection elements =>
      simp only [layerFormed, Bool.and_eq_true, decide_eq_true_eq] at hlayer
      have hlength : 2 ≤
          (rereadAll (fun e => e.isUnion || e.isArrow) conjuncts elements).length :=
        Nat.le_trans hlayer.1 (length_le_rereadAll _ fun e he => (ih e he (hparts e he)).1)
      exact ⟨ne_nil_of_length_pos (Nat.zero_lt_of_lt hlength), fun _ _ => ⟨hlength, rfl⟩⟩
    | union => exact ⟨cons_ne_nil _ _, by rintro ⟨⟩ ⟨⟩⟩
    | _ => exact ⟨cons_ne_nil _ _, by rintro ⟨⟩⟩

end

end TypeExpr

namespace TypeReader

/-- The lexemes are read as a primary and operators after it, which make up the type. -/
def Trail (level : Nat) (lexemes : List TypeLexeme) (type : TypeExpr) (rest : List TypeLexeme) :
    Prop :=
  ∃ first mid, Gives (primary (TypeReader.level level)) lexemes first mid ∧
    Strides (suffix (TypeReader.level level)) first mid type rest

section
variable {m : Nat} {lexemes mid rest : List TypeLexeme} {type type' : TypeExpr}

theorem trail_of_primary (h : Gives (primary (level m)) lexemes type rest) :
    Trail m lexemes type rest :=
  ⟨type, rest, h, .here⟩

/-- One operator more. -/
theorem Trail.step (h : Trail m lexemes type mid) (hlength : rest.length < mid.length)
    (hstep : Gives (suffix (level m) type) mid (some type') rest) : Trail m lexemes type' rest := by
  obtain ⟨first, start, hfirst, hsteps⟩ := h
  exact ⟨first, start, hfirst, hsteps.more hstep hlength⟩

/-- A primary is read with all operators after it. -/
theorem Trail.postfixed (h : Trail m lexemes type rest)
    (hrest : Halts (["|", "&"] ++ closers) rest) :
    Gives (postfixed (level m)) lexemes type rest := by
  obtain ⟨first, mid, hfirst, hsteps⟩ := h
  exact hfirst.bind (hsteps.gives (gives_suffix_stop hrest))

end

/-- The signs that may follow a type: those given, unless an arrow would take them up, and those
that end a type. -/
def signsAfter (type : TypeExpr) (marks : List String) : List String :=
  if type.endsArrow then closers else marks ++ closers

/-- What may follow a type to which operators can be applied. -/
def Trails (type : TypeExpr) (rest : List TypeLexeme) : Prop :=
  if type.isClosed then
    Halts (["[", "<", "?", "!", "=", "|", "&"] ++ closers) rest ∨
      ∃ later, rest = sign "." :: sign "<" :: later
  else if type.isQuestioned then Halts (["=", "|", "&"] ++ closers) rest
  else Halts (signsAfter type ["|", "&"]) rest

section
variable {type : TypeExpr} {rest : List TypeLexeme}

/-- Whatever follows such a type is one of these signs. -/
theorem Trails.halts (h : Trails type rest) :
    Halts (["[", "<", ".", "?", "!", "=", "|", "&"] ++ closers) rest := by
  rw [Trails] at h
  split at h
  · rcases h with h | ⟨later, rfl⟩
    · exact h.mono (by decide)
    · exact halts_sign (by decide)
  · split at h
    · exact h.mono (by decide)
    · rw [signsAfter] at h
      split at h
      · exact h.mono (by decide)
      · exact h.mono (by decide)

/-- Where a type ends, no operator after it was meant to be applied to it. -/
theorem trails_of_halts (h : Halts (signsAfter type ["|", "&"]) rest) : Trails type rest := by
  have hsub : signsAfter type ["|", "&"] ⊆ ["|", "&"] ++ closers := by
    rw [signsAfter]
    split
    · decide
    · decide
  rw [Trails]
  split
  · exact .inl (h.mono fun _ hmem => mem_append_right ["[", "<", "?", "!", "="] (hsub hmem))
  · split
    · exact h.mono fun _ hmem => mem_cons_of_mem _ (hsub hmem)
    · exact h

variable {marks : List String}

theorem halts_of_signsAfter (h : Halts (signsAfter type marks) rest) :
    Halts (marks ++ closers) rest := by
  rw [signsAfter] at h
  split at h
  · exact h.mono (subset_append_right _ _)
  · exact h

theorem signsAfter_subset {marks' : List String} (h : marks ⊆ marks') :
    signsAfter type marks ⊆ signsAfter type marks' := by
  rw [signsAfter, signsAfter]
  split
  · exact List.Subset.refl _
  · exact append_subset.2 ⟨List.Subset.trans h (subset_append_left _ _), subset_append_right _ _⟩

theorem signsAfter_congr {type' : TypeExpr} (h : type.endsArrow = type'.endsArrow)
    (marks : List String) : signsAfter type marks = signsAfter type' marks := by
  rw [signsAfter, signsAfter, h]

/-- Where a type ends for good, it ends before any operator. -/
theorem halts_signsAfter (h : Halts closers rest) :
    Halts (signsAfter type marks) rest := by
  rw [signsAfter]
  split
  · exact h
  · exact h.mono (subset_append_right _ _)

end

/-- The text of the type is read back on every level of the grammar that it can stand on. -/
structure ReadsBack (type : TypeExpr) : Prop extends type.Legible where
  asTrail : type.isPostfix = true → ∀ {m rest}, type.lexemes.length ≤ m + 1 → Trails type rest →
    Trail m (type.lexemes ++ rest) type.reread rest
  asOperand : type.isOperand = true → type.isJoined = false → ∀ {m rest},
    type.lexemes.length ≤ m + 1 → Halts (signsAfter type ["|", "&"]) rest →
    Gives (operand (level m)) (type.lexemes ++ rest) type.reread rest
  asConjuncts : type.isOperand = true → type.isUnion = false → ∀ {m rest},
    type.lexemes.length ≤ m + 1 → Halts (signsAfter type ["|", "&"]) rest →
    Chain (operand (level m)) "&" (type.lexemes ++ rest) type.reread.conjuncts rest
  asAlternatives : type.isOperand = true → ∀ {m rest},
    type.lexemes.length ≤ m + 1 → Halts (signsAfter type ["|"]) rest →
    Chain (conjunction (level m)) "|" (type.lexemes ++ rest) type.reread.alternatives rest

section
variable {type : TypeExpr}

theorem length_le_append (lexemes rest : List TypeLexeme) :
    rest.length ≤ (lexemes ++ rest).length := by
  rw [length_append]
  exact Nat.le_add_left _ _

variable {m : Nat} {rest : List TypeLexeme}

/-- A type that is no union is one alternative. -/
theorem chain_of_conjuncts (hformed : type.isFormed = true) (hunion : type.isUnion = false)
    (hrest : Halts (signsAfter type ["|"]) rest)
    (h : Chain (operand (level m)) "&" (type.lexemes ++ rest) type.reread.conjuncts rest) :
    Chain (conjunction (level m)) "|" (type.lexemes ++ rest) type.reread.alternatives rest := by
  rw [TypeExpr.alternatives_of_not_isUnion hunion]
  refine .one ?_ (length_le_append _ _)
  refine (h.gives (by simp) ((halts_of_signsAfter hrest).is_eq_false (by decide))).bind ?_
  cases hjoined : type.isJoined with
  | false =>
    rw [TypeExpr.conjuncts_of_not_isJoined hjoined]
    exact gives_pure
  | true =>
    obtain ⟨hlength, heq⟩ := (TypeExpr.conjuncts_reread hformed).2 hjoined hunion
    generalize type.reread.conjuncts = items at hlength heq
    rw [heq]
    match items, hlength with
    | _ :: _ :: _, _ => exact gives_pure

/-- A whole type is read from its alternatives. -/
theorem ReadsBack.wholeType (h : ReadsBack type) (hoperand : type.isOperand = true)
    (hlength : type.lexemes.length ≤ m + 1) (hrest : Halts closers rest) :
    Gives (wholeType (level m)) (type.lexemes ++ rest) type.reread rest := by
  obtain ⟨lexeme, more, hstarts⟩ :=
    TypeExpr.exists_starts h.formed h.grouped (TypeExpr.isType_of_isOperand hoperand)
  have hbar : Gives (eat "|") (type.lexemes ++ rest) false (type.lexemes ++ rest) := by
    refine gives_eat_not ?_
    rw [hstarts.lexemes]
    exact is_of_canStart hstarts.starts (by decide) (by decide)
  have hchain := h.asAlternatives hoperand hlength (halts_signsAfter hrest)
  refine hbar.bind ((hchain.gives (by simp) (hrest.is_eq_false (by decide))).bind ?_)
  cases hunion : type.isUnion with
  | false =>
    rw [TypeExpr.alternatives_of_not_isUnion hunion]
    exact gives_pure
  | true =>
    obtain ⟨hlength, heq⟩ := (TypeExpr.alternatives_reread h.formed).2 hunion
    generalize type.reread.alternatives = items at hlength heq
    rw [heq]
    match items, hlength with
    | _ :: _ :: _, _ => exact gives_pure

/-- One level is enough for a lexeme more. -/
theorem ReadsBack.readsType (h : ReadsBack type) (hoperand : type.isOperand = true)
    (hlength : type.lexemes.length ≤ m) : ReadsType (level m) type := by
  intro rest hrest
  cases m with
  | zero =>
    exact absurd (length_eq_zero_iff.1 (Nat.le_zero.1 hlength))
      (TypeExpr.lexemes_ne_nil h.formed)
  | succ m => exact h.wholeType hoperand hlength hrest

theorem ReadsBack.operandBelow (h : ReadsBack type) (hoperand : type.isOperand = true)
    (hjoined : type.isJoined = false) (hlength : type.lexemes.length ≤ m)
    (hrest : Halts (signsAfter type ["|", "&"]) rest) :
    Gives (level m .operand) (type.lexemes ++ rest) type.reread rest := by
  cases m with
  | zero =>
    exact absurd (length_eq_zero_iff.1 (Nat.le_zero.1 hlength))
      (TypeExpr.lexemes_ne_nil h.formed)
  | succ m => exact h.asOperand hoperand hjoined hlength hrest

/-- A type that no operator stands before is not taken for one with an operator. -/
theorem gives_operand {recur : TypeGoal → TypeReader TypeExpr} {signs : List String}
    {value : TypeExpr} {out : List TypeLexeme} (h : type.Legible) (hpost : type.isPostfix = true)
    (hoperand : type.isOperand = true) (hrest : Halts signs rest) (hcolon : ":" ∉ signs)
    (hvalue : Gives (postfixed recur) (type.lexemes ++ rest) value out) :
    Gives (operand recur) (type.lexemes ++ rest) value out := by
  obtain ⟨lexeme, more, hstarts⟩ :=
    TypeExpr.exists_starts h.formed h.grouped (TypeExpr.isType_of_isOperand hoperand)
  have hfirst : TypeLexeme.peek (type.lexemes ++ rest) 0 = lexeme := by rw [hstarts.lexemes]; rfl
  have hbare : ∀ text, sign text ∈ [sign "?", sign "!", sign "..."] →
      TypeToken.isNameText text.toList = false → lexeme.is text = false := by
    intro text htext hname
    rw [← Bool.not_eq_true]
    intro his
    exact hstarts.bare hpost (eq_sign_of_is hstarts.starts hname his ▸ htext)
  have hkeyof : lexeme.is "keyof" = false := by
    rw [← Bool.not_eq_true]
    intro hword
    have hopening := hstarts.keyof hpost (eq_word_of_is hstarts.starts (by decide) hword)
    simp [TypeExpr.isOperand, hopening] at hoperand
  have htypeof : (lexeme.is "typeof" &&
      (TypeLexeme.peek (type.lexemes ++ rest) 1).kind == .name) = false := by
    rw [Bool.and_eq_false_iff, beq_eq_false_iff_ne]
    refine or_iff_not_imp_left.2 fun hword => ?_
    rw [Bool.not_eq_false] at hword
    exact (peek_one_of_starts hstarts (eq_word_of_is hstarts.starts (by decide) hword)
      (.inl hpost) hrest hcolon).1
  rw [← hfirst] at hbare hkeyof htypeof
  refine gives_miss (hbare "?" (by decide) (by decide)) ?_
  refine gives_pass (hbare "!" (by decide) (by decide)) ?_
  refine gives_miss (hbare "..." (by decide) (by decide)) ((gives_at? "typeof").bind ?_)
  refine gives_peek_bind fun token htoken => gives_else ?_ (gives_pass hkeyof hvalue)
  rw [← htoken] at htypeof
  exact htypeof

/-- A type that is no union and no intersection is read back if it is read as an operand. -/
theorem readsBack_of_operand (h : type.Legible)
    (htrail : type.isPostfix = true → ∀ {m rest}, type.lexemes.length ≤ m + 1 → Trails type rest →
      Trail m (type.lexemes ++ rest) type.reread rest)
    (hjoined : type.isJoined = false)
    (hoperand : type.isOperand = true → ∀ {m rest}, type.lexemes.length ≤ m + 1 →
      Halts (signsAfter type ["|", "&"]) rest →
      Gives (operand (level m)) (type.lexemes ++ rest) type.reread rest) : ReadsBack type := by
  have hunion : type.isUnion = false := by cases type <;> first | rfl | cases hjoined
  have hconjuncts : type.isOperand = true → ∀ {m rest}, type.lexemes.length ≤ m + 1 →
      Halts (signsAfter type ["|", "&"]) rest →
      Chain (operand (level m)) "&" (type.lexemes ++ rest) type.reread.conjuncts rest := by
    intro htype m rest hlength hrest
    rw [TypeExpr.conjuncts_of_not_isJoined hjoined]
    exact .one (hoperand htype hlength hrest) (length_le_append _ _)
  exact
    { h with
      asTrail := htrail
      asOperand := fun htype _ => hoperand htype
      asConjuncts := fun htype _ => hconjuncts htype
      asAlternatives := fun htype _ _ hlength hrest =>
        chain_of_conjuncts h.formed hunion hrest
          (hconjuncts htype hlength (hrest.mono (signsAfter_subset (by decide)))) }

/-- A type that operators can be applied to is read back. -/
theorem readsBack_of_trail (h : type.Legible) (hpost : type.isPostfix = true)
    (htrail : ∀ {m rest}, type.lexemes.length ≤ m + 1 → Trails type rest →
      Trail m (type.lexemes ++ rest) type.reread rest) : ReadsBack type := by
  have hjoined : type.isJoined = false := by cases type <;> first | rfl | cases hpost
  have hoperand : type.isOperand = true → ∀ {m rest}, type.lexemes.length ≤ m + 1 →
      Halts (signsAfter type ["|", "&"]) rest →
      Gives (operand (level m)) (type.lexemes ++ rest) type.reread rest := by
    intro hoperand m rest hlength hrest
    have hhalts := halts_of_signsAfter hrest
    exact gives_operand h hpost hoperand hhalts (by decide)
      ((htrail hlength (trails_of_halts hrest)).postfixed hhalts)
  exact readsBack_of_operand h (fun _ => htrail) hjoined hoperand

end

end TypeReader

end DocTypes
