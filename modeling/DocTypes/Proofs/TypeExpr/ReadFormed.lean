import Mathlib.Data.List.Infix
import DocTypes.Proofs.TypeExpr.After
import DocTypes.Proofs.TypeExpr.Tight

/-!
# Types that are read are formed and tight

Whatever is read from a text is formed and can be an operand (`whole_of_read`), what it quotes
stands in the text, and it is tight, if no optional type is in it (`found_of_read`). The reader is
followed production by production, over a reader one level down of which this is known.

The reader takes all operators after a type that it can, so where a type ends no operator follows
that could be applied to it (`Halted`). That is why an operator is only ever applied to a closed
type: after any other, the operators were taken up by what the type ends in. The exception is `=`,
which may follow a bare `?` or `...`, and that is why optional types are left out. For a type with
operators after it, it also has to be known which word it starts with: an operand that starts with
`keyof` is the operator's, so no other starts with it.
-/

namespace DocTypes

open List

namespace TypeCursor

/-- No operator is next that could be applied to a type, but `=` perhaps. -/
structure Halted (cursor : TypeCursor) : Prop where
  bracket : ((cursor.token 0).is "[" && (cursor.token 1).text == "]") = false
  angle : (cursor.token 0).is "<" = false
  point : ((cursor.token 0).is "." && (cursor.token 1).text == "<") = false
  question :
    ((cursor.token 0).is "?" && TypeReader.terminators.contains (cursor.token 1).text) = false
  bang : (cursor.token 0).is "!" = false

/-- No sign is next that joins types. -/
structure Stopped (cursor : TypeCursor) : Prop where
  bar : (cursor.token 0).is "|" = false
  ampersand : (cursor.token 0).is "&" = false

/-- What ends a type is no operator. -/
theorem halted_of_terminator {cursor : TypeCursor}
    (h : TypeReader.terminators.contains (cursor.token 0).text = true) : cursor.Halted := by
  have hnot : ∀ text, TypeReader.terminators.contains text = false →
      (cursor.token 0).is text = false := by
    intro text htext
    rw [TypeToken.is, Bool.and_eq_false_iff, beq_eq_false_iff_ne]
    left
    rintro rfl
    rw [h] at htext
    cases htext
  exact
    { bracket := by rw [hnot "[" (by decide), Bool.false_and]
      angle := hnot "<" (by decide)
      point := by rw [hnot "." (by decide), Bool.false_and]
      question := by rw [hnot "?" (by decide), Bool.false_and]
      bang := hnot "!" (by decide) }

end TypeCursor

namespace TypeExpr

/-- A formed type that can be an operand. -/
structure Whole (type : TypeExpr) : Prop where
  formed : type.isFormed = true
  operand : type.isOperand = true

/-- Does the source hold what the outermost layer quotes? -/
def layerQuotes (source : List Char) : TypeExpr → Bool
  | .string text _ | .field text _ _ _ (some _) => decide (text.toList <:+: source)
  | _ => true

/-- A formed type, and the source holds all that it quotes. -/
def Drawn (source : List Char) (type : TypeExpr) : Prop :=
  type.everywhere (fun part => part.layerFormed && part.layerQuotes source) = true

/-- The type is tight unless there is an optional type in it. -/
def Firm (type : TypeExpr) : Prop :=
  type.isPlain = true → type.isTight = true

/-- A type as it is read, or a part of one. -/
structure Fit (source : List Char) (type : TypeExpr) : Prop where
  drawn : type.Drawn source
  firm : type.Firm

/-- A type as it is read that can be an operand. -/
structure Found (source : List Char) (type : TypeExpr) : Prop extends type.Fit source where
  operand : type.isOperand = true

/-- A type up to the cursor, after which no operator was left out. -/
structure Settled (source : List Char) (type : TypeExpr) (cursor : TypeCursor) : Prop
    extends type.Found source where
  halted : cursor.Halted
  stopped : type.endsArrow = true → cursor.Stopped

/-- A type up to the cursor, to which operators can be applied if they follow. It starts with the
first token, if it starts with a word. -/
structure Trailing (source : List Char) (start : TypeCursor) (type : TypeExpr)
    (cursor : TypeCursor) : Prop extends type.Fit source where
  isType : type.isType = true
  opening : ∀ word, type.opening = some word → (start.token 0).is word = true
  closed : type.isClosed = true ∨ cursor.Halted
  stopped : type.endsArrow = true → cursor.Stopped
  word : type.isPlain = true → (start.token 0).kind = .name →
    type.opening.isSome = true ∨ type.isConstructor = true

section
variable {source : List Char} {type type' : TypeExpr} {start cursor cursor' : TypeCursor}

theorem drawn_iff : type.Drawn source ↔ (type.layerFormed = true ∧ type.layerQuotes source = true) ∧
    ∀ part ∈ type.parts, part.Drawn source := by
  rw [Drawn, everywhere_iff, Bool.and_eq_true]
  rfl

/-- A drawn type is formed. -/
theorem Drawn.isFormed (h : type.Drawn source) : type.isFormed = true := by
  induction type using byParts with
  | step type ih =>
    obtain ⟨⟨hlayer, -⟩, hparts⟩ := drawn_iff.1 h
    exact isFormed_iff.2 ⟨hlayer, fun part hpart => ih part hpart (hparts part hpart)⟩

theorem fit_of_parts (hformed : type.layerFormed = true) (hquotes : type.layerQuotes source = true)
    (htight : type.isPlain = true → type.layerTight = true)
    (hparts : ∀ part ∈ type.parts, part.Fit source) : type.Fit source where
  drawn := drawn_iff.2 ⟨⟨hformed, hquotes⟩, fun part hpart => (hparts part hpart).drawn⟩
  firm hplain := isTight_iff.2
    ⟨htight hplain, fun e he => (hparts e he).firm ((isPlain_iff.1 hplain).2 e he)⟩

theorem fit_parameter {label : String} {type? : Option TypeExpr}
    (hlabel : TypeToken.isNameText label.toList = true) (htype : ∀ e ∈ type?, e.Found source)
    (isOptional isVariadic : Bool) : (parameter label type? isOptional isVariadic).Fit source := by
  refine fit_of_parts ?_ rfl (fun _ => rfl) fun e he => (htype e (Option.mem_toList.1 he)).toFit
  simp only [layerFormed, hlabel, Bool.true_and]
  exact (Option.all_eq_true _ _).2 fun e he => (htype e he).operand

/-- What the name of a field is. -/
def IsLabel (source : List Char) (readonly : Bool) (label : String) : Option Char → Prop
  | some quote => TypeToken.isStringText quote label.toList = true ∧ label.toList <:+: source
  | none => TypeToken.isNameText label.toList = true ∨
      readonly = false ∧ TypeToken.isNumberText label.toList = true

theorem fit_field {label : String} {type? : Option TypeExpr} {readonly : Bool} {quote : Option Char}
    (hlabel : IsLabel source readonly label quote) (htype : ∀ e ∈ type?, e.Found source)
    (isOptional : Bool) : (field label type? isOptional readonly quote).Fit source := by
  have hall : type?.all isOperand = true :=
    (Option.all_eq_true _ _).2 fun e he => (htype e he).operand
  refine fit_of_parts ?_ ?_ (fun _ => rfl) fun e he => (htype e (Option.mem_toList.1 he)).toFit
  · cases quote with
    | none => simpa [layerFormed, hall, IsLabel] using hlabel
    | some quote => simpa [layerFormed, hall] using hlabel.1
  · cases quote with
    | none => rfl
    | some quote => exact decide_eq_true hlabel.2

/-- A type that starts with no word can be an operand. -/
theorem found_of_opening_none (h : type.Fit source)
    (htype : type.isType = true ∧ type.opening = none) :
    type.Found source :=
  ⟨h, by rw [isOperand, htype.1, htype.2]; rfl⟩

/-- A closed type is not printed in parentheses. -/
theorem not_isBound_of_isClosed (h : type.isClosed = true) :
    type.isPrefixed = false ∧ type.isLow = false ∧ type.isConstructor = false := by
  cases type with
  | notNullable e leading => cases leading <;> first | exact ⟨rfl, rfl, rfl⟩ | cases h
  | function parameters result arrow => cases arrow <;> first | exact ⟨rfl, rfl, rfl⟩ | cases h
  | name | any | string | number | generic | array | object | tuple | parenthesis | optional =>
    exact ⟨rfl, rfl, rfl⟩
  | _ => cases h

/-- An operator that is applied to a closed type. -/
theorem Trailing.affixed (h : type.Trailing source start cursor) (hclosed : type.isClosed = true)
    (hformed : type'.layerFormed = true) (hquotes : type'.layerQuotes source = true)
    (htight : type'.layerTight = type.isClosed) (hpart : type ∈ type'.parts)
    (hparts : ∀ e ∈ type'.parts, e.Fit source)
    (hopening : type.isPrefixed = false → type.isLow = false → type'.opening = type.opening)
    (hends : type'.isType = true ∧ type'.endsArrow = false)
    (hafter : type'.isClosed = true ∨ cursor'.Halted) : type'.Trailing source start cursor' := by
  obtain ⟨hprefixed, hlow, hconstructor⟩ := not_isBound_of_isClosed hclosed
  refine ⟨fit_of_parts hformed hquotes (fun _ => htight.trans hclosed) hparts, hends.1, ?_, hafter,
    fun harrow => ?_, fun hplain hkind => ?_⟩
  · exact fun word hword => h.opening word (hopening hprefixed hlow ▸ hword)
  · rw [hends.2] at harrow
    cases harrow
  · rw [hopening hprefixed hlow]
    refine (h.word ((isPlain_iff.1 hplain).2 type hpart) hkind).imp_right fun hword => ?_
    rw [hconstructor] at hword
    cases hword

end

/-- All characters of a name are such as it may have. -/
theorem notMem_of_isNameText {text : List Char} {c : Char} (h : TypeToken.isNameText text = true)
    (hstart : ¬TypeToken.isNameStart c = true) (hpart : ¬TypeToken.isNamePart c = true) :
    c ∉ text := by
  cases text with
  | nil => exact nofun
  | cons d rest =>
    simp only [TypeToken.isNameText, Bool.and_eq_true, all_eq_true] at h
    intro hmem
    rcases mem_cons.1 hmem with rfl | hrest
    · exact hstart h.1.1
    · exact hpart (h.2 c hrest)

/-- The pieces of names with points between them are these names. -/
theorem pieces_intercalate {names : List String}
    (h : ∀ text ∈ names, TypeToken.isNameText text.toList = true) (hne : names ≠ []) :
    pieces (".".intercalate names) = names.map String.toList := by
  rw [pieces, String.toList_intercalate]
  refine splitOn_intercalate _ ?_ (by simpa using hne)
  intro piece hpiece
  obtain ⟨text, htext, rfl⟩ := mem_map.1 hpiece
  exact notMem_of_isNameText (h text htext) (by decide) (by decide)

end TypeExpr

namespace TypeReader

open TypeExpr

/-- What the reader one level down leaves. -/
def Settles (source : List Char) : TypeGoal → TypeExpr → TypeCursor → Prop
  | .type => fun type cursor => type.Settled source cursor ∧ cursor.Stopped
  | .operand => Settled source

section
variable {source : List Char} {size limit : Nat} {cursor : TypeCursor}

theorem unquote_of_eq {text : String} {quote : Char} {inside : List Char}
    (h : text.toList = quote :: (inside ++ [quote])) :
    unquote text = (String.ofList inside, quote) := by
  simp [unquote, h]

theorem after_fieldName {readonly : Bool} (hcursor : cursor.Within source size)
    (hkind : readonly = true → (cursor.token 0).kind ≠ .number) :
    After fieldName cursor fun label cursor' => cursor'.Within source (size - 1) ∧
      IsLabel source readonly label.1 label.2 := by
  have htoken := hcursor.sound.token 0
  rw [TypeToken.Sound] at htoken
  refine after_current_bind ?_
  cases hkind' : (cursor.token 0).kind with
  | string =>
    rw [hkind'] at htoken
    obtain ⟨quote, inside, htext, hstring⟩ := htoken
    refine after_advance_bind hcursor (hcursor.ne_nil_of_kind hkind') fun hrest => ?_
    rw [unquote_of_eq htext]
    exact after_pure ⟨hrest, by simpa [IsLabel] using hstring⟩
  | name =>
    rw [hkind'] at htoken
    exact after_advance_bind hcursor (hcursor.ne_nil_of_kind hkind') fun hrest =>
      after_pure ⟨hrest, .inl htoken⟩
  | number =>
    rw [hkind'] at htoken
    refine after_advance_bind hcursor (hcursor.ne_nil_of_kind hkind') fun hrest =>
      after_pure ⟨hrest, .inr ⟨?_, htoken⟩⟩
    exact Bool.eq_false_iff.2 fun hreadonly => hkind hreadonly hkind'
  | punctuator | endOfInput => exact after_fail rfl

theorem leaves_dottedRest : Leaves source limit dottedRest fun names _ =>
    ∀ text ∈ names, TypeToken.isNameText text.toList = true := by
  intro size _ cursor hcursor
  have hround : Rounded source size (do
      if (← at? ".") && (← peek 1).kind == .name then
        let _ ← advance
        return some ((← advance).text, true)
      else return none) fun text => TypeToken.isNameText text.toList = true := by
    intro size _ cursor hcursor
    refine after_at?_bind (after_peek_bind 1 (after_ite (fun hnext => ?_) fun _ => ?_))
    · rw [Bool.and_eq_true, beq_iff_eq, ← TypeCursor.token_rest] at hnext
      refine after_advance_bind hcursor (hcursor.ne_nil_of_is hnext.1) fun hcursor => ?_
      refine after_advance_bind hcursor (hcursor.ne_nil_of_kind hnext.2) fun hrest => ?_
      have hname := hcursor.sound.token 0
      rw [TypeToken.Sound, hnext.2] at hname
      exact after_pure ⟨hrest.back.back, hname, fun _ => hrest.back⟩
    · exact after_pure hcursor
  exact (after_get_bind (after_rounds hround _ hcursor.left cursor hcursor.tight)).mono
    fun _ _ hnames => ⟨hnames.1.mono hcursor.left, hnames.2⟩

/-- A name and the names after points. -/
theorem after_name (hcursor : cursor.Within source size) (hkind : (cursor.token 0).kind = .name) :
    After (do
        let _ ← advance
        return TypeExpr.name (".".intercalate ((cursor.token 0).text :: (← dottedRest)))) cursor
      fun type cursor' => cursor'.Within source size ∧ type.Trailing source cursor cursor' := by
  have hname := hcursor.sound.token 0
  rw [TypeToken.Sound, hkind] at hname
  refine after_advance_bind hcursor (hcursor.ne_nil_of_kind hkind) fun hrest =>
    leaves_dottedRest.bind (Nat.le_refl _) hrest fun names cursor' hcursor' hnames =>
      after_pure ⟨hcursor'.back, ?_⟩
  have hpieces := pieces_intercalate (forall_mem_cons.2 ⟨hname, hnames⟩)
    (cons_ne_nil _ _)
  refine ⟨fit_of_parts ?_ rfl (fun _ => rfl) (forall_mem_nil _), rfl,
    fun word hword => ?_, .inl rfl, by rintro ⟨⟩, fun _ _ => .inl ?_⟩
  · rw [layerFormed, hpieces, map_cons, all_cons, hname, Bool.true_and,
      all_map]
    exact all_eq_true.2 hnames
  · simp only [opening, hpieces, map_cons, head?_cons, Option.map_some,
      String.ofList_toList, Option.some.injEq] at hword
    simp [TypeToken.is, hword, hkind]
  · rw [opening, hpieces]
    rfl

variable {recur : TypeGoal → TypeReader TypeExpr}
  (h : ∀ goal, Leaves source limit (recur goal) (Settles source goal))
include h

theorem leaves_listUpTo (close : String) :
    Leaves source limit (listUpTo recur close) fun types _ => ∀ e ∈ types, e.Found source := by
  intro size hsize cursor hcursor
  refine after_eat_bind hcursor (fun _ hrest => after_pure ⟨hrest.back, nofun⟩) fun _ => ?_
  refine (h .type).bind hsize hcursor fun first cursor hcursor hfirst => ?_
  refine after_many_bind (Found source) hcursor (fun size' hle cursor hcursor => ?_)
    fun later cursor hcursor hlater => ?_
  · refine after_eat_bind hcursor (fun _ hrest => after_at?_bind (after_ite ?_ ?_)) ?_
    · exact fun _ => after_pure hrest.back
    · exact fun _ => (h .type).bind (by omega) hrest fun e cursor hcursor he =>
        after_pure ⟨hcursor.back, he.1.toFound, fun _ => hcursor⟩
    · exact fun _ => after_pure hcursor
  · exact after_expect_bind hcursor fun hrest => after_pure
      ⟨hrest.back, forall_mem_cons.2 ⟨hfirst.1.toFound, hlater⟩⟩

theorem leaves_annotated :
    Leaves source (limit + 1) (annotation? recur) fun type? _ => ∀ e ∈ type?, e.Found source := by
  intro size hsize cursor hcursor
  refine after_eat_bind hcursor (fun _ hrest => ?_) fun _ => after_pure ⟨hcursor, nofun⟩
  refine (h .type).bind (by omega) hrest fun e cursor hcursor he => after_pure ⟨hcursor.back, ?_⟩
  rintro _ ⟨⟩
  exact he.1.toFound

theorem leaves_arrowType (constructs : Bool) :
    Leaves source (limit + 1) (arrowType recur constructs) fun type cursor => type.Fit source ∧
      (type.isType = true ∧ type.opening = none) ∧ type.isConstructor = constructs ∧
      cursor.Halted ∧ cursor.Stopped := by
  intro size hsize cursor hcursor
  refine after_expect_bind hcursor fun hrest => after_many_bind
    (fun p => p.isParameter = true ∧ p.Fit source) hrest (fun size' hle cursor hcursor => ?_)
    fun parameters cursor hcursor hparameters => ?_
  · refine after_at?_bind (after_ite (fun _ => after_pure hcursor) fun _ => ?_)
    refine after_skip_bind hcursor fun variadic cursor hcursor => after_current_bind ?_
    refine after_ite (fun _ => after_fail_bind rfl) fun hkind => ?_
    have hname := hcursor.sound.token 0
    rw [bne_iff_ne, ne_eq, not_not] at hkind
    rw [TypeToken.Sound, hkind] at hname
    refine after_advance_bind hcursor (hcursor.ne_nil_of_kind hkind) fun hrest => ?_
    refine after_skip_bind hrest fun optional cursor hcursor => ?_
    refine (leaves_annotated h).bind (by omega) hcursor fun type cursor hcursor htype => ?_
    refine After.bind (after_pure ?_)
    exact after_skip_bind hcursor fun more cursor hcursor => after_pure ⟨hcursor.back,
      ⟨rfl, fit_parameter hname htype optional variadic⟩, fun _ => hcursor⟩
  · refine after_expect_bind hcursor fun hrest => after_expect_bind hrest fun hrest =>
      (h .type).bind (by omega) hrest fun result cursor hcursor hresult =>
        after_pure ⟨hcursor.back.back.back, fit_of_parts ?_ rfl (fun _ => rfl) ?_, ⟨rfl, rfl⟩, rfl,
          hresult.1.halted, hresult.2⟩
    · simpa [layerFormed, hresult.1.operand] using fun p hp => (hparameters p hp).1
    · exact forall_mem_append.2 ⟨fun p hp => (hparameters p hp).2,
        forall_mem_singleton.2 hresult.1.toFit⟩

theorem after_functionType (hcursor : cursor.Within source size) (hsize : size ≤ limit + 1)
    (hword : (cursor.token 0).is "function" = true) :
    After (functionType recur) cursor fun type cursor' =>
      cursor'.Within source size ∧ type.Trailing source cursor cursor' := by
  refine after_advance_bind hcursor (hcursor.ne_nil_of_is hword) fun hrest =>
    after_expect_bind hrest fun hrest => after_many_bind
      (fun p => p.Fit source ∧ (p.isOperand || p.isReceiver) = true)
      hrest (fun size' hle cursor hcursor => ?_) fun parameters cursor hcursor hparameters => ?_
  · refine after_at?_bind (after_ite (fun _ => after_pure hcursor) fun _ => ?_)
    have hparameter : After (do
        if ((cursor.token 0).is "this" || (cursor.token 0).is "new") && (← ahead? 1 ":") then
          let _ ← advance
          let _ ← advance
          return .parameter (cursor.token 0).text (some (← recur .type)) false false
        else recur .type) cursor fun p cursor' => cursor'.Within source size' ∧
          p.Fit source ∧ (p.isOperand || p.isReceiver) = true := by
      refine after_ahead?_bind (after_ite (fun hword => ?_) fun _ => ?_)
      · rw [Bool.and_eq_true, Bool.or_eq_true, beq_iff_eq, ← TypeCursor.token_rest] at hword
        have hpending := hword.1.elim hcursor.ne_nil_of_is hcursor.ne_nil_of_is
        refine after_advance_bind hcursor hpending fun hrest =>
          after_advance_bind hrest (hrest.ne_nil_of_text hword.2) fun hrest =>
            (h .type).bind (by omega) hrest fun e cursor' hcursor' he =>
              after_pure ⟨hcursor'.back.back, ?_⟩
        have hlabel : (cursor.token 0).text = "this" ∨ (cursor.token 0).text = "new" := by
          simp only [Bool.and_eq_true, TypeToken.is, beq_iff_eq] at hword
          exact hword.1.imp And.left And.left
        have hreceiver :
          (TypeExpr.parameter (cursor.token 0).text (some e) false false).isReceiver =
            true := by
          simpa [isReceiver] using hlabel
        refine ⟨fit_parameter ?_ (by rintro _ ⟨⟩; exact he.1.toFound) _ _,
          by rw [hreceiver, Bool.or_true]⟩
        rcases hlabel with hlabel | hlabel <;> rw [hlabel] <;> decide
      · exact (h .type size' (by omega) cursor hcursor).mono
          fun e _ he => ⟨he.1, he.2.1.toFit, by rw [he.2.1.operand]; rfl⟩
    refine after_current_bind (hparameter.then fun p cursor hp => ?_)
    exact after_eat_bind hp.1 (fun _ hrest => after_pure ⟨hrest.back, hp.2, fun _ => hrest⟩)
      fun _ => after_pure ⟨hp.1, hp.2, by rintro ⟨⟩⟩
  · have hresult : Leaves source limit
        (do if ← eat ":" then return some (← recur .operand) else return none)
        fun result cursor' => ∀ e ∈ result, e.Settled source cursor' := by
      intro size hsize cursor hcursor
      refine after_eat_bind hcursor (fun _ hrest => ?_) fun _ =>
        after_pure ⟨hcursor, by rintro _ ⟨⟩⟩
      refine (h .operand).bind (by omega) hrest fun e cursor hcursor he =>
        after_pure ⟨hcursor.back, ?_⟩
      rintro _ ⟨⟩
      exact he
    refine after_expect_bind hcursor fun hrest => hresult.bind (by omega) hrest
      fun result cursor hcursor hresult => ?_
    refine after_pure ⟨hcursor.back.back.back,
      ⟨fit_of_parts ?_ rfl (fun _ => rfl) ?_, rfl, ?_, ?_, ?_, fun _ _ => .inl rfl⟩⟩
    · have hall : result.all isOperand = true :=
        (Option.all_eq_true _ _).2 fun e he => (hresult e he).operand
      simp only [layerFormed, TypeShape.whole, hall]
      exact all_eq_true.2 fun p hp => (hparameters p hp).2
    · exact forall_mem_append.2 ⟨fun p hp => (hparameters p hp).1,
        fun e he => (hresult e (Option.mem_toList.1 he)).toFit⟩
    · rintro _ ⟨⟩
      exact hword
    · cases result with
      | none => exact .inl rfl
      | some e => exact .inr (hresult e rfl).halted
    · intro harrow
      cases result with
      | none => cases harrow
      | some e =>
        simp only [TypeShape.whole, endsArrow, endsArrowOption, Bool.false_or, Bool.and_eq_true]
          at harrow
        exact (hresult e rfl).stopped harrow.2

theorem leaves_objectType :
    Leaves source (limit + 1) (objectType recur) fun type _ => type.Fit source ∧
      (type.isType = true ∧ type.opening = none) ∧ type.isClosed = true ∧
      type.endsArrow = false := by
  intro size hsize cursor hcursor
  refine after_expect_bind hcursor fun hrest => after_many_bind
    (fun f => f.1.isField = true ∧ f.1.Fit source) hrest (fun size' hle cursor hcursor => ?_)
    fun fields cursor hcursor hfields => ?_
  · refine after_at?_bind (after_ite (fun _ => after_pure hcursor) fun _ => ?_)
    have hreadonly : After (do
        let next := (← peek 1).kind
        if (← at? "readonly") && (next == .name || next == .string) then
          let _ ← advance
          return true
        else return false) cursor fun readonly cursor' => cursor'.Within source size' ∧
          (readonly = true → (cursor'.token 0).kind ≠ .number) := by
      refine after_peek_bind 1 (after_at?_bind (after_ite (fun hnext => ?_) fun _ => ?_))
      · rw [Bool.and_eq_true] at hnext
        refine after_advance_bind hcursor (hcursor.ne_nil_of_is hnext.1) fun hrest =>
          after_pure ⟨hrest.back, fun _ hnumber => ?_⟩
        rw [TypeCursor.token_rest] at hnumber
        simp [hnumber] at hnext
      · exact after_pure ⟨hcursor, nofun⟩
    refine hreadonly.then fun readonly cursor hreadonly => ?_
    refine (after_fieldName hreadonly.1 hreadonly.2).then fun label cursor hlabel => ?_
    refine after_skip_bind hlabel.1 fun optional cursor hcursor => ?_
    refine (leaves_annotated h).bind (by omega) hcursor fun type cursor hcursor htype => ?_
    have hfield : (TypeExpr.field label.1 type optional readonly label.2).isField = true ∧
        (TypeExpr.field label.1 type optional readonly label.2).Fit source :=
      ⟨rfl, fit_field hlabel.2 htype optional⟩
    refine After.bind (after_pure (after_at?_bind (after_at?_bind
      (after_ite (fun hnext => ?_) fun _ => ?_))))
    · have hpending := (Bool.or_eq_true_iff.1 hnext).elim hcursor.ne_nil_of_is hcursor.ne_nil_of_is
      exact after_advance_bind hcursor hpending fun hrest =>
        after_pure ⟨hrest.back.back, hfield, fun _ => hrest.back⟩
    · exact after_pure ⟨hcursor.back, hfield, nofun⟩
  · refine after_expect_bind hcursor fun hrest => after_pure ⟨hrest.back.back,
      fit_of_parts ?_ rfl (fun _ => rfl) ?_, ⟨rfl, rfl⟩, rfl, rfl⟩
    · rw [TypeShape.whole, layerFormed, Bool.and_eq_true, all_map, all_eq_true]
      exact ⟨fun pair hpair => (hfields pair hpair).1, by split <;> rfl⟩
    · exact forall_mem_map.2 fun pair hpair => (hfields pair hpair).2

section
variable (hcursor : cursor.Within source size) (hsize : size ≤ limit + 1)
include hcursor hsize

/-- A type that starts with a sign, or with a word before a parenthesis. -/
theorem after_signed {other : TypeReader TypeExpr} (hother : After other cursor fun type cursor' =>
      cursor'.Within source size ∧ type.Trailing source cursor cursor') :
    After (do
        if (cursor.token 0).is "*" then
          let _ ← advance
          return .any
        else if (cursor.token 0).is "(" then
          if arrowFollows 0 (← get).pending then arrowType recur false
          else
            let _ ← advance
            let inner ← recur .type
            expect ")"
            return .parenthesis inner
        else if (cursor.token 0).is "\x7b" then objectType recur
        else if (cursor.token 0).is "[" then
          let _ ← advance
          return .tuple (← listUpTo recur "]")
        else if (cursor.token 0).is "new" && (← ahead? 1 "(") then
          let _ ← advance
          arrowType recur true
        else if (cursor.token 0).is "function" && (← ahead? 1 "(") then functionType recur
        else other) cursor fun type cursor' =>
      cursor'.Within source size ∧ type.Trailing source cursor cursor' := by
  have hplain : ∀ {type : TypeExpr}, type.isType = true ∧ type.opening = none →
      ∀ word, type.opening = some word → (cursor.token 0).is word = true := by
    intro type htype word hword
    rw [htype.2] at hword
    cases hword
  -- what starts with a sign starts with no name
  have hsign : ∀ {type : TypeExpr} {cursor' : TypeCursor} (text : String),
      (cursor.token 0).is text = true → TypeToken.isNameText text.toList = false →
      type.Fit source → type.isType = true ∧ type.opening = none →
      (type.isClosed = true ∨ cursor'.Halted) → (type.endsArrow = true → cursor'.Stopped) →
      type.Trailing source cursor cursor' := by
    intro type cursor' text his htext hfit htype hclosed hstopped
    refine ⟨hfit, htype.1, hplain htype, hclosed, hstopped, fun _ hkind => ?_⟩
    rw [hcursor.not_is_of_name hkind htext] at his
    cases his
  refine after_ite (fun his => ?_) fun _ => after_ite (fun his => ?_) fun _ => ?_
  · exact after_advance_bind hcursor (hcursor.ne_nil_of_is his) fun hrest => after_pure
      ⟨hrest.back, hsign "*" his (by decide) ⟨rfl, fun _ => rfl⟩ ⟨rfl, rfl⟩ (.inl rfl) nofun⟩
  · refine after_get_bind (after_ite (fun _ => ?_) fun _ => ?_)
    · exact (leaves_arrowType h false size hsize cursor hcursor).mono fun type cursor' htype =>
        ⟨htype.1, hsign "(" his (by decide) htype.2.1 htype.2.2.1 (.inr htype.2.2.2.2.1)
          fun _ => htype.2.2.2.2.2⟩
    · refine after_advance_bind hcursor (hcursor.ne_nil_of_is his) fun hrest =>
        (h .type).bind (by omega) hrest fun e cursor' hcursor' he => ?_
      refine after_expect_bind hcursor' fun hrest => after_pure ⟨hrest.back.back,
        hsign "(" his (by decide) ?_ ⟨rfl, rfl⟩ (.inl rfl) nofun⟩
      exact fit_of_parts he.1.operand rfl (fun _ => rfl)
        (forall_mem_singleton.2 he.1.toFit)
  refine after_ite (fun his => ?_) fun _ => after_ite (fun his => ?_) fun _ => ?_
  · refine (leaves_objectType h size hsize cursor hcursor).mono fun type cursor' htype =>
      ⟨htype.1, hsign "\x7b" his (by decide) htype.2.1 htype.2.2.1 (.inl htype.2.2.2.1) ?_⟩
    rw [htype.2.2.2.2]
    exact nofun
  · refine after_advance_bind hcursor (hcursor.ne_nil_of_is his) fun hrest =>
      (leaves_listUpTo h "]").bind (by omega) hrest fun elements cursor' hcursor' helements =>
        after_pure ⟨hcursor'.back, hsign "[" his (by decide) ?_ ⟨rfl, rfl⟩ (.inl rfl) nofun⟩
    exact fit_of_parts (all_eq_true.2 fun e he => (helements e he).operand) rfl
      (fun _ => rfl) fun e he => (helements e he).toFit
  refine after_ahead?_bind (after_ite (fun hword => ?_) fun _ => ?_)
  · rw [Bool.and_eq_true] at hword
    refine after_advance_bind hcursor (hcursor.ne_nil_of_is hword.1) fun hrest => ?_
    exact (leaves_arrowType h true _ (by omega) cursor.rest hrest).mono fun type cursor' htype =>
      ⟨htype.1.back, htype.2.1, htype.2.2.1.1, hplain htype.2.2.1, .inr htype.2.2.2.2.1,
        fun _ => htype.2.2.2.2.2, fun _ _ => .inr htype.2.2.2.1⟩
  refine after_ahead?_bind (after_ite (fun hword => ?_) fun _ => hother)
  rw [Bool.and_eq_true] at hword
  exact after_functionType h hcursor hsize hword.1

theorem after_primary :
    After (primary recur) cursor fun type cursor' =>
      cursor'.Within source size ∧ type.Trailing source cursor cursor' := by
  have htoken := hcursor.sound.token 0
  rw [TypeToken.Sound] at htoken
  -- a string or a number starts with no word
  have hsolid : ∀ {type : TypeExpr} {cursor' : TypeCursor}, (cursor.token 0).kind ≠ .name →
      type.Fit source → type.isType = true → type.opening = none → type.isClosed = true →
      type.endsArrow = false → type.Trailing source cursor cursor' := by
    intro type cursor' hkind hfit htype hopening hclosed harrow
    refine ⟨hfit, htype, ?_, .inl hclosed, ?_, fun _ hname => absurd hname hkind⟩
    · rw [hopening]
      rintro _ ⟨⟩
    · rw [harrow]
      rintro ⟨⟩
  refine after_current_bind ?_
  cases hkind : (cursor.token 0).kind with
  | string =>
    rw [hkind] at htoken
    obtain ⟨quote, inside, htext, hstring, hstands⟩ := htoken
    refine after_advance_bind hcursor (hcursor.ne_nil_of_kind hkind) fun hrest => ?_
    rw [unquote_of_eq htext]
    refine after_pure ⟨hrest.back, hsolid (by rw [hkind]; rintro ⟨⟩)
      (fit_of_parts ?_ ?_ (fun _ => rfl) (forall_mem_nil _)) rfl rfl rfl rfl⟩
    · simpa [layerFormed] using hstring
    · simpa [layerQuotes] using hstands
  | number =>
    rw [hkind] at htoken
    exact after_advance_bind hcursor (hcursor.ne_nil_of_kind hkind) fun hrest =>
      after_pure ⟨hrest.back, hsolid (by rw [hkind]; rintro ⟨⟩)
        (fit_of_parts htoken rfl (fun _ => rfl) (forall_mem_nil _)) rfl rfl rfl rfl⟩
  | name => exact after_signed h hcursor hsize (after_name hcursor hkind)
  | punctuator | endOfInput => exact after_signed h hcursor hsize (after_fail rfl)

/-- One operator after a type, or none that is left. -/
theorem after_suffix {start : TypeCursor} {type : TypeExpr}
    (htype : type.Trailing source start cursor) :
    After (suffix recur type) cursor (Onward source size (Trailing source start)
      (fun type cursor' => type.Trailing source start cursor' ∧ cursor'.Halted) type) := by
  -- where an operator is next, the type is closed
  have hclosed : ∀ {sign : Bool}, (cursor.Halted → sign = false) → sign = true →
      type.isClosed = true :=
    fun hnot hsign => htype.closed.resolve_right fun hhalted =>
      Bool.false_ne_true ((hnot hhalted).symm.trans hsign)
  have hpart := forall_mem_singleton.2 htype.toFit
  have hgeneric : ∀ {cursor' : TypeCursor} (dotted : Bool), cursor'.Within source (size - 1) →
      type.isClosed = true →
      After (do return some (.generic type (← listUpTo recur ">") dotted)) cursor'
        (Onward source size (Trailing source start)
          (fun type cursor' => type.Trailing source start cursor' ∧ cursor'.Halted) type) := by
    intro cursor' dotted hcursor' hclosed'
    refine (leaves_listUpTo h ">").bind (by omega) hcursor'
      fun arguments cursor'' hcursor'' harguments => after_pure ⟨hcursor'',
        htype.affixed hclosed' ?_ rfl rfl (.head _) ?_ (fun _ _ => rfl) ⟨rfl, rfl⟩ (.inl rfl)⟩
    · rw [layerFormed, htype.isType]
      exact all_eq_true.2 fun e he => (harguments e he).operand
    · exact forall_mem_cons.2 ⟨htype.toFit, fun e he => (harguments e he).toFit⟩
  refine after_at?_bind (after_ahead?_bind (after_ite (fun hnext => ?_) fun hbracket => ?_))
  · have hclosed' := hclosed TypeCursor.Halted.bracket hnext
    rw [Bool.and_eq_true, beq_iff_eq, ← TypeCursor.token_rest] at hnext
    refine after_advance_bind hcursor (hcursor.ne_nil_of_is hnext.1) fun hrest =>
      after_advance_bind hrest (hrest.ne_nil_of_text hnext.2) fun hrest =>
        after_pure ⟨hrest.back, ?_⟩
    refine htype.affixed hclosed' htype.isType rfl rfl (.head _) hpart ?_ ⟨rfl, rfl⟩ (.inl rfl)
    intro hprefixed hlow
    simp [opening, hprefixed, hlow]
  refine after_eat_bind hcursor (fun hnext hrest => hgeneric false hrest
    (hclosed TypeCursor.Halted.angle hnext)) fun hangle => ?_
  refine after_at?_bind (after_ahead?_bind (after_ite (fun hnext => ?_) fun hpoint => ?_))
  · have hclosed' := hclosed TypeCursor.Halted.point hnext
    rw [Bool.and_eq_true, beq_iff_eq, ← TypeCursor.token_rest] at hnext
    exact after_advance_bind hcursor (hcursor.ne_nil_of_is hnext.1) fun hrest =>
      after_advance_bind hrest (hrest.ne_nil_of_text hnext.2) fun hrest =>
        hgeneric true hrest.back hclosed'
  refine after_at?_bind (after_terminated_bind (after_ite (fun hnext => ?_) fun hquestion => ?_))
  · have hclosed' := hclosed TypeCursor.Halted.question hnext
    rw [Bool.and_eq_true] at hnext
    refine after_advance_bind hcursor (hcursor.ne_nil_of_is hnext.1) fun hrest =>
      after_pure ⟨hrest, ?_⟩
    have hhalted : cursor.rest.Halted := TypeCursor.halted_of_terminator
      (by rw [TypeCursor.token_rest]; exact hnext.2)
    refine htype.affixed hclosed' htype.isType rfl rfl (.head _) hpart ?_ ⟨rfl, rfl⟩ (.inr hhalted)
    intro hprefixed hlow
    simp [opening, hlow]
  refine after_eat_bind hcursor (fun hnext hrest => after_pure ⟨hrest, ?_⟩) fun hbang =>
    after_eat_bind hcursor (fun _ hrest => after_pure ⟨hrest, ?_⟩) fun _ => ?_
  · refine htype.affixed (hclosed TypeCursor.Halted.bang hnext) htype.isType rfl rfl
      (.head _) hpart ?_
      ⟨rfl, rfl⟩ (.inl rfl)
    intro hprefixed hlow
    simp [opening, hlow]
  · -- an optional type is not plain
    have hplain : (TypeExpr.optional type).isPlain ≠ true := fun hplain =>
      Bool.false_ne_true (isPlain_iff.1 hplain).1.symm
    refine ⟨fit_of_parts htype.isType rfl (absurd · hplain) hpart, rfl,
      fun word hword => ?_, .inl rfl,
      by rintro ⟨⟩, (absurd · hplain)⟩
    exact htype.opening word (Option.ite_none_left_eq_some.1 hword).2
  · exact after_pure ⟨hcursor, htype, by simpa using hbracket, hangle, by simpa using hpoint,
      by simpa using hquestion, hbang⟩

/-- A type with the operators after it. -/
theorem after_postfixed :
    After (postfixed recur) cursor fun type cursor' =>
      cursor'.Within source size ∧ type.Trailing source cursor cursor' ∧ cursor'.Halted :=
  (after_primary h hcursor hsize).then fun _ _ htype => after_stepping
    (fun _ hle _ _ hcursor htype => after_suffix h hcursor (Nat.le_trans hle hsize) htype)
    htype.1 htype.2

end

theorem leaves_operand : Leaves source (limit + 1) (operand recur) (Settled source) := by
  intro size hsize cursor hcursor
  have hlead :
    ∀ (form : TypeExpr → TypeExpr) {cursor : TypeCursor}, cursor.Within source (size - 1) →
      (∀ e, (form e).layerFormed = e.isOperand ∧ (form e).layerQuotes source = true ∧
        (form e).layerTight = true ∧ (form e).parts = [e] ∧
        ((form e).isType = true ∧ (form e).opening = none) ∧
        ((form e).endsArrow = true → e.endsArrow = true)) →
      After (do return form (← recur .operand)) cursor
        fun type cursor' => cursor'.Within source size ∧ type.Settled source cursor' := by
    intro form cursor hcursor hform
    refine (h .operand).bind (by omega) hcursor fun e cursor' hcursor' he =>
      after_pure ⟨hcursor'.back, ?_⟩
    obtain ⟨hlayer, hquotes, htight, hparts, htype, harrow⟩ := hform e
    refine ⟨found_of_opening_none (fit_of_parts (hlayer.trans he.operand) hquotes
      (fun _ => htight) ?_) htype, he.halted, fun hends => he.stopped (harrow hends)⟩
    rw [hparts]
    exact forall_mem_singleton.2 he.toFit
  -- a bare sign stands before what ends a type
  have hbare : ∀ {type : TypeExpr}, type.Found source → type.endsArrow = false →
      terminators.contains (cursor.token 1).text = true → type.Settled source cursor.rest := by
    intro type hfound harrow hnext
    refine ⟨hfound, TypeCursor.halted_of_terminator
      (by rw [TypeCursor.token_rest]; exact hnext), ?_⟩
    rw [harrow]
    rintro ⟨⟩
  refine after_at?_bind (after_ite (fun his => ?_) fun _ => ?_)
  · refine after_terminated_bind (after_advance_bind hcursor (hcursor.ne_nil_of_is his) fun hrest =>
      after_ite (fun hnext => ?_) fun _ => ?_)
    · exact after_pure ⟨hrest.back, hbare ⟨⟨rfl, fun _ => rfl⟩, rfl⟩ rfl hnext⟩
    · refine hlead (fun e => .nullable e true) hrest
        fun e => ⟨rfl, rfl, rfl, rfl, ⟨rfl, rfl⟩, ?_⟩
      simp [endsArrow]
  refine after_eat_bind hcursor (fun _ hrest => ?_) fun _ =>
    after_at?_bind (after_ite (fun his => ?_) fun _ => ?_)
  · refine hlead (fun e => .notNullable e true) hrest
      fun e => ⟨rfl, rfl, rfl, rfl, ⟨rfl, rfl⟩, ?_⟩
    simp [endsArrow]
  · refine after_terminated_bind (after_advance_bind hcursor (hcursor.ne_nil_of_is his) fun hrest =>
      after_ite (fun hnext => ?_) fun _ => ?_)
    · exact after_pure ⟨hrest.back, hbare ⟨⟨rfl, fun _ => rfl⟩, rfl⟩ rfl hnext⟩
    · refine hlead (fun e => .variadic (some e)) hrest
        fun e => ⟨rfl, rfl, rfl, rfl, ⟨rfl, rfl⟩, ?_⟩
      simp [endsArrow, endsArrowOption]
  refine after_at?_bind (after_peek_bind 1 (after_ite (fun hnext => ?_) fun _ => ?_))
  · rw [Bool.and_eq_true, beq_iff_eq] at hnext
    refine after_advance_bind hcursor (hcursor.ne_nil_of_is hnext.1) fun hrest =>
      (after_postfixed h hrest (by omega)).then fun e cursor' he =>
        after_pure ⟨he.1.back, found_of_opening_none (fit_of_parts he.2.1.isType rfl
          (fun hplain => ?_) (forall_mem_singleton.2 he.2.1.toFit)) ⟨rfl, rfl⟩, he.2.2,
          he.2.1.stopped⟩
    rw [TypeShape.whole, layerTight, Bool.or_eq_true]
    refine he.2.1.word ((isPlain_iff.1 hplain).2 e (.head _)) ?_
    rw [TypeCursor.token_rest]
    exact hnext.2
  refine after_eat_bind hcursor (fun _ hrest => ?_) fun hkeyof => ?_
  · refine hlead .keyof hrest fun e => ⟨rfl, rfl, rfl, rfl, ⟨rfl, rfl⟩, ?_⟩
    simp [endsArrow]
  · refine (after_postfixed h hcursor hsize).mono fun type cursor' htype =>
      ⟨htype.1, ⟨htype.2.1.toFit, ?_⟩, htype.2.2, htype.2.1.stopped⟩
    rw [isOperand, htype.2.1.isType, Bool.true_and, bne_iff_ne]
    intro hopening
    rw [htype.2.1.opening _ hopening] at hkeyof
    cases hkeyof

end

/-- Types up to the cursor that are joined by a sign, which is not next. Only the last of them may
end in the result of an arrow. -/
structure Joined (source : List Char) (mark : String) (Q : TypeCursor →
    Prop) (types : List TypeExpr)
    (cursor : TypeCursor) : Prop where
  found : ∀ e ∈ types, e.Found source
  arrow : ∀ e ∈ types.dropLast, e.endsArrow = false
  settled : ∀ e ∈ types.getLast?, e.Settled source cursor
  next : (cursor.token 0).is mark = false
  more : Q cursor

section
variable {source : List Char} {mark : String} {Q : TypeCursor → Prop} {types : List TypeExpr}
  {cursor cursor' : TypeCursor} {first : TypeExpr}

theorem Joined.cons (h : Joined source mark Q types cursor) (hne : types ≠ [])
    (hfirst : first.Found source) (harrow : first.endsArrow = false) :
    Joined source mark Q (first :: types) cursor where
  found := forall_mem_cons.2 ⟨hfirst, h.found⟩
  arrow := by
    rw [dropLast_cons_of_ne_nil hne]
    exact forall_mem_cons.2 ⟨harrow, h.arrow⟩
  settled := by
    rw [getLast?_cons_of_ne_nil hne]
    exact h.settled
  next := h.next
  more := h.more

/-- Types that were joined make up a type after which no operator was left out. -/
theorem Joined.settled_join (h : Joined source mark Q types cursor) (hlength : 2 ≤ types.length)
    (join : List TypeExpr → TypeExpr) {loose : TypeExpr → Bool}
    (hjoin : (join types).layerFormed = (decide (2 ≤ types.length) && types.all isOperand) ∧
      (join types).layerQuotes source = true ∧
      (join types).layerTight = types.dropLast.all (fun e => !e.endsArrow) ∧
      (join types).parts = types ∧ ((join types).isType = true ∧ (join types).opening = none) ∧
      (join types).endsArrow = endsArrowLast loose types) :
    (join types).Settled source cursor := by
  obtain ⟨hformed, hquotes, htight, hparts, htype, harrow⟩ := hjoin
  have hne : types ≠ [] := by
    rintro rfl
    cases hlength
  obtain ⟨init, last, rfl⟩ := eq_nil_or_concat types |>.resolve_left hne
  have hlast : last.Settled source cursor := h.settled last (by simp)
  refine ⟨found_of_opening_none (fit_of_parts ?_ hquotes (fun _ => ?_) ?_) htype,
    hlast.halted, ?_⟩
  · rw [hformed, Bool.and_eq_true, decide_eq_true_eq]
    exact ⟨hlength, all_eq_true.2 fun e he => (h.found e he).operand⟩
  · rw [htight, all_eq_true]
    intro e he
    rw [h.arrow e he]
    rfl
  · rw [hparts]
    exact fun e he => (h.found e he).toFit
  · rw [harrow, concat_eq_append, endsArrowLast_append, Bool.and_eq_true]
    exact fun hends => hlast.stopped hends.2

section
variable {limit : Nat} {item : TypeReader TypeExpr}
  (h : Leaves source (limit + 1) item fun type cursor => type.Settled source cursor ∧ Q cursor)
  (hmark : ∀ {cursor : TypeCursor}, cursor.Stopped → (cursor.token 0).is mark = false)
include h hmark

/-- Types that are joined by a sign, from the second on. -/
theorem after_rounds_joined (bound : Nat) :
    ∀ {cursor : TypeCursor} {first : TypeExpr}, bound ≤ limit + 1 → cursor.Within source bound →
      first.Settled source cursor → Q cursor → After (rounds TypeCursor.left (fail .stalled) (do
        if ← eat mark then return some (← item, true) else return none) bound) cursor
        fun later cursor' => cursor'.Within source bound ∧
          Joined source mark Q (first :: later) cursor' := by
  induction bound with
  | zero => exact fun _ hcursor => absurd hcursor.left (Nat.not_lt_zero _)
  | succ bound ih =>
    intro cursor first hbound hcursor hfirst hQ
    have hleft := hcursor.left
    refine after_get_bind
      (After.bind (after_eat_bind hcursor.tight (fun hnext hrest => ?_) fun hnext => ?_))
    · refine h.bind (by omega) hrest fun second cursor' hcursor' hsecond => after_pure ?_
      have hless : cursor'.left < cursor.left := hcursor'.left
      refine after_get_bind (after_ite (fun _ => ?_) (absurd hless))
      refine (ih (by omega) (hcursor'.mono (by omega)) hsecond.1 hsecond.2).then
        fun later cursor'' hlater => after_pure ?_
      refine ⟨hlater.1.mono (Nat.le_succ _), hlater.2.cons (cons_ne_nil _ _) hfirst.toFound ?_⟩
      rw [← Bool.not_eq_true]
      intro harrow
      rw [hmark (hfirst.stopped harrow)] at hnext
      cases hnext
    · refine after_pure (after_pure ⟨hcursor, ?_⟩)
      exact
        { found := forall_mem_singleton.2 hfirst.toFound
          arrow := forall_mem_nil _
          settled := by
            rintro _ ⟨⟩
            exact hfirst
          next := hnext
          more := hQ }

theorem leaves_separatedBy : Leaves source (limit + 1) (separatedBy mark item) fun types cursor =>
    types ≠ [] ∧ Joined source mark Q types cursor := by
  intro size hsize cursor hcursor
  refine h.bind hsize hcursor fun first cursor' hcursor' hfirst => ?_
  refine After.then
    (after_get_bind (after_rounds_joined h hmark _ (Nat.le_trans hcursor'.left hsize)
    hcursor'.tight hfirst.1 hfirst.2)) fun later cursor'' hlater => after_pure ?_
  exact ⟨hlater.1.mono hcursor'.left, cons_ne_nil _ _, hlater.2⟩

end

variable {limit : Nat} {recur : TypeGoal → TypeReader TypeExpr}
  (h : ∀ goal, Leaves source limit (recur goal) (Settles source goal))
include h

theorem leaves_conjunction : Leaves source (limit + 1) (conjunction recur) fun type cursor =>
    type.Settled source cursor ∧ (cursor.token 0).is "&" = false := by
  intro size hsize cursor hcursor
  have hoperand : Leaves source (limit + 1) (operand recur) fun type cursor =>
      type.Settled source cursor ∧ True :=
    fun size hsize cursor hcursor => (leaves_operand h size hsize cursor hcursor).mono
      fun type cursor' htype => ⟨htype.1, htype.2, trivial⟩
  refine (leaves_separatedBy hoperand TypeCursor.Stopped.ampersand).bind hsize hcursor
    fun types cursor hcursor htypes => ?_
  obtain ⟨hne, hjoined⟩ := htypes
  rcases types with _ | ⟨single, _ | ⟨second, rest⟩⟩
  · exact absurd rfl hne
  · exact after_pure ⟨hcursor, hjoined.settled single rfl, hjoined.next⟩
  · exact after_pure ⟨hcursor, hjoined.settled_join (Nat.le_add_left _ _) .intersection
      ⟨rfl, rfl, rfl, rfl, ⟨rfl, rfl⟩, rfl⟩, hjoined.next⟩

theorem leaves_wholeType : Leaves source (limit + 1) (wholeType recur) (Settles source .type) := by
  intro size hsize cursor hcursor
  refine after_skip_bind hcursor fun _ cursor hcursor => ?_
  refine (leaves_separatedBy (leaves_conjunction h) TypeCursor.Stopped.bar).bind hsize hcursor
    fun types cursor hcursor htypes => ?_
  obtain ⟨hne, hjoined⟩ := htypes
  have hstopped : cursor.Stopped := ⟨hjoined.next, hjoined.more⟩
  rcases types with _ | ⟨single, _ | ⟨second, rest⟩⟩
  · exact absurd rfl hne
  · exact after_pure ⟨hcursor, hjoined.settled single rfl, hstopped⟩
  · exact after_pure ⟨hcursor, hjoined.settled_join (Nat.le_add_left _ _) .union
      ⟨rfl, rfl, rfl, rfl, ⟨rfl, rfl⟩, rfl⟩, hstopped⟩

end

/-- A reader for as many tokens as the one below, and one more: where the one below is called, a
token was taken. -/
theorem leaves_step {source : List Char} {limit : Nat} {recur : TypeGoal → TypeReader TypeExpr}
    (h : ∀ goal, Leaves source limit (recur goal) (Settles source goal)) :
    ∀ goal, Leaves source (limit + 1) (step recur goal) (Settles source goal)
  | .type => leaves_wholeType h
  | .operand => leaves_operand h

/-- Levels are enough for one token less. -/
theorem leaves_level {source : List Char} (levels : Nat) :
    ∀ goal, Leaves source levels (level levels goal) (Settles source goal) := by
  induction levels with
  | zero => exact fun goal size hsize cursor hcursor =>
      absurd (Nat.lt_of_lt_of_le hcursor.left hsize) (Nat.not_lt_zero _)
  | succ levels ih => exact leaves_step ih

theorem leaves_root {source : List Char} (levels : Nat) :
    Leaves source levels (root levels) fun type _ => type.Found source := by
  intro size hsize cursor hcursor
  refine after_current_bind (after_ite (fun _ => after_fail_bind rfl) fun _ => ?_)
  refine (leaves_level levels .type).bind hsize hcursor fun type cursor hcursor htype => ?_
  exact after_current_bind (after_ite (fun _ => after_fail_bind rfl)
    fun _ => after_pure ⟨hcursor, htype.1.toFound⟩)

end TypeReader

namespace TypeExpr

variable {text : List Char} {line : Nat} {type : TypeExpr}

/-- What is read from a text can be an operand, and the text holds what it quotes. If nothing is
read, the cause lies in the text. -/
theorem found_read (text : List Char) (line : Nat) : match read text line with
    | .ok type => type.Found text
    | .error error => error.cause.isOfText = true := by
  have hsound := TypeToken.sound_lex text
  rw [read]
  cases hlex : TypeToken.lex text with
  | error =>
    rw [hlex] at hsound
    exact hsound
  | ok tokens =>
    rw [hlex] at hsound
    have hcursor : TypeCursor.Within text (tokens.length + 1)
        ⟨tokens, ⟨.endOfInput, "", text.length⟩⟩ :=
      ⟨⟨hsound, trivial⟩, ⟨rfl, rfl⟩, Nat.lt_succ_self _⟩
    have hroot := TypeReader.leaves_root _ _ (Nat.le_refl _) _ hcursor
    rw [TypeReader.After] at hroot
    dsimp only [bind, Except.bind]
    rw [StateT.run'_eq]
    cases hrun : (TypeReader.root (tokens.length + 1) : TypeReader TypeExpr).run
        ⟨tokens, ⟨.endOfInput, "", text.length⟩⟩ with
    | error =>
      rw [hrun] at hroot
      exact hroot
    | ok =>
      rw [hrun] at hroot
      exact hroot.2

/-- A type that was read from a text can be an operand, and the text holds what it quotes. -/
theorem found_of_read (h : read text line = .ok type) : type.Found text := by
  have hfound := found_read text line
  rw [h] at hfound
  exact hfound

/-- A type that was read from a text is formed and can be an operand. -/
theorem whole_of_read (h : read text line = .ok type) : type.Whole :=
  ⟨(found_of_read h).drawn.isFormed, (found_of_read h).operand⟩

end TypeExpr

end DocTypes
