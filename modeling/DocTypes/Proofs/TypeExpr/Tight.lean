import DocTypes.Proofs.TypeExpr.Legible

/-!
# Tight types

In a tight type every operator stands where the text needs no parentheses that the tree does not
hold. Such a type is almost legible. Where a point stands between a number and arguments, it is
printed right after the number, and then it is read as part of it. `pointed` gives such numbers
their points. The text stays as it is (`print_pointed`), and a formed and tight type becomes a
legible one (`legible_pointed`).
-/

namespace DocTypes

open List

namespace TypeExpr

/-- Is it a number? -/
def isNumber : TypeExpr → Bool
  | .number _ => true
  | _ => false

/-- The type, with a point if it is a number and `dotted` holds. -/
def withPoint (dotted : Bool) : TypeExpr → TypeExpr
  | .number text => .number (if dotted then text ++ "." else text)
  | type => type

mutual

/-- The type with the point between a number and arguments as part of the number. -/
def pointed : TypeExpr → TypeExpr
  | .name text => .name text
  | .any => .any
  | .unknown => .unknown
  | .string text quote => .string text quote
  | .number text => .number text
  | .union elements => .union (pointedAll elements)
  | .intersection elements => .intersection (pointedAll elements)
  | .generic head arguments dotted =>
    .generic (withPoint dotted head.pointed) (pointedAll arguments) (dotted && !head.isNumber)
  | .array element => .array element.pointed
  | .field label type isOptional readonly quote =>
    .field label (pointedOption type) isOptional readonly quote
  | .object fields separator => .object (pointedAll fields) separator
  | .tuple elements => .tuple (pointedAll elements)
  | .parameter label type isOptional isVariadic =>
    .parameter label (pointedOption type) isOptional isVariadic
  | .function parameters result arrow constructs =>
    .function (pointedAll parameters) (pointedOption result) arrow constructs
  | .parenthesis element => .parenthesis element.pointed
  | .nullable element leading => .nullable element.pointed leading
  | .notNullable element leading => .notNullable element.pointed leading
  | .optional element => .optional element.pointed
  | .variadic element => .variadic (pointedOption element)
  | .typeof element => .typeof element.pointed
  | .keyof element => .keyof element.pointed

/-- The types with points as parts of numbers. -/
def pointedAll : List TypeExpr → List TypeExpr
  | [] => []
  | type :: rest => type.pointed :: pointedAll rest

/-- The type, if it is there, with points as parts of numbers. -/
def pointedOption : Option TypeExpr → Option TypeExpr
  | none => none
  | some type => some type.pointed

end

section
variable (type : TypeExpr)

@[simp]
theorem pointedAll_eq_map (types : List TypeExpr) : pointedAll types = types.map pointed := by
  induction types with
  | nil => rfl
  | cons type rest ih => rw [pointedAll, map_cons, ih]

@[simp]
theorem pointedOption_eq_map (type? : Option TypeExpr) :
    pointedOption type? = type?.map pointed := by
  cases type? <;> rfl

@[simp]
theorem isArrow_pointed : type.pointed.isArrow = type.isArrow := by cases type <;> rfl

@[simp]
theorem isUnion_pointed : type.pointed.isUnion = type.isUnion := by cases type <;> rfl

@[simp]
theorem isJoined_pointed : type.pointed.isJoined = type.isJoined := by cases type <;> rfl

@[simp]
theorem isLoose_pointed : type.pointed.isLoose = type.isLoose := by cases type <;> rfl

@[simp]
theorem isLow_pointed : type.pointed.isLow = type.isLow := by simp [isLow]

@[simp]
theorem isPrefixed_pointed : type.pointed.isPrefixed = type.isPrefixed := by cases type <;> rfl

@[simp]
theorem isNumber_pointed : type.pointed.isNumber = type.isNumber := by cases type <;> rfl

@[simp]
theorem isType_pointed : type.pointed.isType = type.isType := by cases type <;> rfl

@[simp]
theorem isField_pointed : type.pointed.isField = type.isField := by cases type <;> rfl

@[simp]
theorem isParameter_pointed : type.pointed.isParameter = type.isParameter := by cases type <;> rfl

@[simp]
theorem isReceiver_pointed : type.pointed.isReceiver = type.isReceiver := by
  cases type with
  | parameter label type isOptional isVariadic =>
    cases type <;> cases isOptional <;> cases isVariadic <;> rfl
  | _ => rfl

@[simp]
theorem isConstructor_pointed : type.pointed.isConstructor = type.isConstructor := by
  cases type <;> rfl

@[simp]
theorem isClosed_pointed : type.pointed.isClosed = type.isClosed := by
  cases type with
  | function parameters result => cases result <;> rfl
  | _ => rfl

@[simp]
theorem isType_withPoint (dotted : Bool) : (withPoint dotted type).isType = type.isType := by
  cases type <;> rfl

@[simp]
theorem isClosed_withPoint (dotted : Bool) : (withPoint dotted type).isClosed = type.isClosed := by
  cases type <;> rfl

@[simp]
theorem opening_withPoint (dotted : Bool) : (withPoint dotted type).opening = type.opening := by
  cases type <;> rfl

theorem withPoint_of_not_isNumber {type : TypeExpr} (h : type.isNumber = false) (dotted : Bool) :
    withPoint dotted type = type := by
  cases type <;> first | rfl | cases h

/-- The point is printed with the number or with the brackets. -/
theorem print_withPoint (dotted : Bool) :
    (withPoint dotted type).print ++ (if (dotted && !type.isNumber) = true then ".<" else "<") =
      type.print ++ if dotted then ".<" else "<" := by
  cases hnumber : type.isNumber with
  | false => rw [withPoint_of_not_isNumber hnumber, Bool.not_false, Bool.and_true]
  | true =>
    obtain ⟨text, rfl⟩ : ∃ text, type = .number text := by
      cases type with
      | number text => exact ⟨text, rfl⟩
      | _ => cases hnumber
    cases dotted with
    | true => rw [withPoint, print, print, if_pos rfl, if_pos rfl, String.append_assoc]; rfl
    | false => rfl

@[simp]
theorem opening_pointed : type.pointed.opening = type.opening := by
  induction type using byParts with
  | step type ih =>
    cases type with
    | generic head => simpa [pointed, opening] using ih head (.head _)
    | array e | nullable e | notNullable e | optional e =>
      simp [pointed, opening, ih e (.head _)]
    | _ => rfl

@[simp]
theorem isOperand_pointed : type.pointed.isOperand = type.isOperand := by simp [isOperand]

@[simp]
theorem all_isOperand_pointed (type? : Option TypeExpr) :
    (type?.map pointed).all isOperand = type?.all isOperand := by
  cases type? <;> simp

theorem endsArrowLast_pointed (loose : TypeExpr → Bool) (hloose : ∀ e, loose e.pointed = loose e)
    {types : List TypeExpr} (h : ∀ e ∈ types, e.pointed.endsArrow = e.endsArrow) :
    endsArrowLast loose (types.map pointed) = endsArrowLast loose types := by
  induction types with
  | nil => rfl
  | cons first rest ih =>
    obtain ⟨hfirst, hrest⟩ := forall_mem_cons.1 h
    cases rest with
    | nil => simp [endsArrowLast, hloose, hfirst]
    | cons => exact ih hrest

@[simp]
theorem endsArrow_pointed : type.pointed.endsArrow = type.endsArrow := by
  induction type using byParts with
  | step type ih =>
    cases type with
    | union elements =>
      simp only [parts] at ih
      rw [pointed, pointedAll_eq_map, endsArrow, endsArrow,
        endsArrowLast_pointed _ isArrow_pointed ih]
    | intersection elements =>
      simp only [parts] at ih
      rw [pointed, pointedAll_eq_map, endsArrow, endsArrow,
        endsArrowLast_pointed (fun e => e.isUnion || e.isArrow) (fun e => by simp) ih]
    | function parameters result =>
      cases result with
      | none => rfl
      | some e =>
        have he := ih e (mem_append_right _ (.head _))
        simp [pointed, endsArrow, endsArrowOption, he]
    | variadic e? =>
      cases e? with
      | none => rfl
      | some e => simp [pointed, endsArrow, endsArrowOption, ih e (.head _)]
    | nullable e | notNullable e | typeof e | keyof e =>
      simp [pointed, endsArrow, ih e (.head _)]
    | _ => rfl

/-- Points that are part of a number make no difference to the text. -/
@[simp]
theorem print_pointed : type.pointed.print = type.print := by
  induction type using byParts with
  | step type ih =>
    have hlist : ∀ {types : List TypeExpr}, (∀ e ∈ types, e.pointed.print = e.print) →
        ∀ loose : TypeExpr → Bool, (∀ e, loose e.pointed = loose e) →
        printGrouped loose (types.map pointed) = printGrouped loose types := by
      intro types htypes loose hloose
      rw [printGrouped_eq_map, printGrouped_eq_map, map_map]
      exact map_congr_left fun e he => by rw [Function.comp_apply, hloose, htypes e he]
    cases type with
    | name | any | unknown | string | number => rfl
    | union elements =>
      simp only [parts] at ih
      rw [pointed, print, print, pointedAll_eq_map, hlist ih _ isArrow_pointed]
    | intersection elements =>
      simp only [parts] at ih
      rw [pointed, print, print, pointedAll_eq_map,
        hlist ih (fun e => e.isUnion || e.isArrow) fun e => by simp]
    | tuple elements | object elements =>
      simp only [parts] at ih
      rw [pointed, print, print, pointedAll_eq_map, hlist ih _ fun _ => rfl]
    | generic head arguments dotted =>
      obtain ⟨hhead, harguments⟩ := forall_mem_cons.1 ih
      have hpoint := print_withPoint head.pointed dotted
      rw [isNumber_pointed, hhead] at hpoint
      rw [pointed, print, print, pointedAll_eq_map, hlist harguments _ fun _ => rfl, hpoint]
    | array e | parenthesis e | typeof e | keyof e =>
      simp [pointed, print, ih e (.head _)]
    | nullable e | notNullable e | optional e =>
      simp [pointed, print, affixed, ih e (.head _)]
    | field label type | parameter label type =>
      cases type with
      | none => rfl
      | some type => simp [pointed, print, ih type (.head _)]
    | variadic type =>
      cases type with
      | none => rfl
      | some type => simp [pointed, pointedOption, print, affixed, ih type (.head _)]
    | function parameters result arrow constructs =>
      rw [pointed, print, print, pointedAll_eq_map,
        hlist (fun e he => ih e (mem_append_left _ he)) _ fun _ => rfl]
      cases result with
      | none => rfl
      | some e =>
        have he := ih e (mem_append_right _ (.head _))
        simp [pointedOption, printOption, he]

end

/-- Is it an optional type? -/
def isOptional : TypeExpr → Bool
  | .optional _ => true
  | _ => false

/-- A type without optional types in it. -/
def isPlain (type : TypeExpr) : Bool :=
  type.everywhere fun e => !e.isOptional

/-- Does every operator of the outermost layer stand where the text of its operand needs no
parentheses? -/
def layerTight : TypeExpr → Bool
  | .union elements | .intersection elements => elements.dropLast.all fun e => !e.endsArrow
  | .generic head _ _ => head.isClosed
  | .array e => e.isClosed
  | .nullable e leading | .notNullable e leading => leading || e.isClosed
  | .optional _ => false
  | .typeof e => e.opening.isSome || e.isConstructor
  | _ => true

/-- A type whose operators apply, in its text, to what they apply to in the tree. -/
def isTight (type : TypeExpr) : Bool :=
  type.everywhere layerTight

theorem isTight_iff {type : TypeExpr} :
    type.isTight = true ↔ type.layerTight = true ∧ ∀ part ∈ type.parts, part.isTight = true :=
  everywhere_iff

theorem isPlain_iff {type : TypeExpr} :
    type.isPlain = true ↔ type.isOptional = false ∧ ∀ part ∈ type.parts, part.isPlain = true := by
  rw [isPlain, everywhere_iff, Bool.not_eq_true']
  rfl

section
variable {type : TypeExpr}

/-- No operator `=` is in a tight type. -/
theorem isPlain_of_isTight (h : type.isTight = true) : type.isPlain = true := by
  induction type using byParts with
  | step type ih =>
    obtain ⟨hlayer, hparts⟩ := isTight_iff.1 h
    refine isPlain_iff.2 ⟨?_, fun e he => ih e he (hparts e he)⟩
    cases type <;> first | rfl | cases hlayer

/-- The parts of a type with points in its numbers are its parts with points in their numbers. -/
theorem forall_parts_pointed {P : TypeExpr → Prop}
    (hpoint : ∀ {e dotted}, P e → P (withPoint dotted e))
    (h : ∀ e ∈ type.parts, P e.pointed) : ∀ e ∈ type.pointed.parts, P e := by
  cases type with
  | name | any | unknown | string | number => exact forall_mem_nil _
  | union elements | intersection elements | tuple elements | object elements =>
    rw [pointed, pointedAll_eq_map]
    exact forall_mem_map.2 h
  | generic head arguments dotted =>
    obtain ⟨hhead, harguments⟩ := forall_mem_cons.1 h
    rw [pointed, pointedAll_eq_map]
    exact forall_mem_cons.2 ⟨hpoint hhead, forall_mem_map.2 harguments⟩
  | array e | parenthesis e | nullable e | notNullable e | optional e | typeof e | keyof e =>
    exact forall_mem_singleton.2 (h e (.head _))
  | field label e? | parameter label e? | variadic e? =>
    cases e? with
    | none => exact forall_mem_nil _
    | some e => exact forall_mem_singleton.2 (h e (.head _))
  | function parameters result =>
    rw [pointed, pointedAll_eq_map, pointedOption_eq_map]
    obtain ⟨hparameters, hresult⟩ := forall_mem_append.1 h
    refine forall_mem_append.2 ⟨forall_mem_map.2 hparameters, ?_⟩
    cases result with
    | none => exact forall_mem_nil _
    | some e => exact forall_mem_singleton.2 (hresult e (.head _))

/-- A number with a point after it is a number. -/
theorem isNumberText_point {text : List Char} (h : TypeToken.isNumberText text = true) :
    TypeToken.isNumberText (text ++ ['.']) = true := by
  cases text with
  | nil => cases h
  | cons c rest =>
    simp only [TypeToken.isNumberText, Bool.and_eq_true] at h
    rw [cons_append, TypeToken.isNumberText, Bool.and_eq_true, all_append, h.2]
    refine ⟨?_, by decide⟩
    cases rest with
    | nil =>
      have hdigit : isDigitLike c = true := by
        simpa [TypeToken.startsNumber] using h.1
      simp [TypeToken.startsNumber, hdigit]
    | cons => exact h.1

theorem isFormed_withPoint {dotted : Bool} (h : type.isFormed = true) :
    (withPoint dotted type).isFormed = true := by
  cases hnumber : type.isNumber with
  | false =>
    rw [withPoint_of_not_isNumber hnumber]
    exact h
  | true =>
    cases type with
    | number text =>
      cases dotted with
      | false => exact h
      | true =>
        refine isFormed_iff.2 ⟨?_, forall_mem_nil _⟩
        have htext := isNumberText_point (isFormed_iff.1 h).1
        simpa [layerFormed, withPoint] using htext
    | _ => cases hnumber

theorem isFormed_pointed (h : type.isFormed = true) : type.pointed.isFormed = true := by
  induction type using byParts with
  | step type ih =>
    obtain ⟨hlayer, hparts⟩ := isFormed_iff.1 h
    refine isFormed_iff.2 ⟨?_, forall_parts_pointed isFormed_withPoint fun e he =>
      ih e he (hparts e he)⟩
    cases type with
    | any | unknown => rfl
    | field label type isOptional readonly quote =>
      cases quote <;> simpa [pointed, layerFormed, Function.comp_def] using hlayer
    | _ => simpa [pointed, layerFormed, Function.comp_def] using hlayer

theorem isPlain_withPoint {dotted : Bool} (h : type.isPlain = true) :
    (withPoint dotted type).isPlain = true := by
  cases type <;> exact h

theorem isPlain_pointed (h : type.isPlain = true) : type.pointed.isPlain = true := by
  induction type using byParts with
  | step type ih =>
    obtain ⟨hlayer, hparts⟩ := isPlain_iff.1 h
    refine isPlain_iff.2 ⟨?_, forall_parts_pointed isPlain_withPoint fun e he =>
      ih e he (hparts e he)⟩
    cases type <;> first | rfl | cases hlayer

theorem stopsBefore_of_ne {lexeme : TypeLexeme} (h : lexeme ≠ .sign "=") :
    lexeme.stopsBefore '>' = true := by
  obtain ⟨kind, text⟩ := lexeme
  cases kind with
  | name => exact (by decide : (!TypeToken.isNamePart '>') = true)
  | number => exact (by decide : (!TypeToken.isNumberPart '>') = true)
  | string | endOfInput => rfl
  | punctuator =>
    have htext : text ≠ "=" := fun htext => h (htext ▸ rfl)
    simp [TypeLexeme.stopsBefore, htext]

theorem composes_stopsBefore :
    Composes fun lexemes => ∀ lexeme ∈ lexemes, lexeme.stopsBefore '>' = true where
  nil := forall_mem_nil _
  append h h' := forall_mem_append.2 ⟨h, h'⟩
  flat _ hne := forall_mem_singleton.2 (stopsBefore_of_ne hne)
  bracket h hopening hclosing := forall_mem_append.2
    ⟨forall_mem_cons.2 ⟨stopsBefore_of_ne (by rintro rfl; cases hopening), h⟩,
      forall_mem_singleton.2 (stopsBefore_of_ne (by rintro rfl; cases hclosing.2))⟩

/-- Only the sign `=` would make up a longer one with `>`, and that stands in optional types. -/
theorem stopsBefore_of_isPlain (hformed : type.isFormed = true) (hplain : type.isPlain = true) :
    ∀ lexeme ∈ type.lexemes, lexeme.stopsBefore '>' = true := by
  induction type using byParts with
  | step type ih =>
    obtain ⟨hlayer, hparts⟩ := isFormed_iff.1 hformed
    obtain ⟨hoptional, hparts'⟩ := isPlain_iff.1 hplain
    refine composes_stopsBefore.layer hlayer ?_
      fun part hpart => ih part hpart (hparts part hpart) (hparts' part hpart)
    rintro e rfl
    cases hoptional

/-- A point after a closed type that is no number is a token of its own. -/
theorem endsBefore_point (hclosed : type.isClosed = true) (hnumber : type.isNumber = false) :
    endsBefore '.' type.lexemes = true := by
  have hlast : ∀ (lexemes : List TypeLexeme) (text : String), text ≠ "." →
      endsBefore '.' (lexemes ++ [TypeLexeme.sign text]) = true := by
    intro lexemes text htext
    simp [endsBefore, TypeLexeme.stopsBefore, TypeLexeme.sign, htext]
  cases type with
  | name text =>
    have hword : ∀ list ∈ (pieces text).map fun piece => [TypeLexeme.word (String.ofList piece)],
        list ≠ [] ∧ TypeToken.Apart list ['.'] := by
      refine forall_mem_map.2 fun piece _ => ⟨cons_ne_nil _ _, ?_⟩
      rintro _ ⟨⟩ _ ⟨⟩
      have hpart : (!TypeToken.isNamePart '.') = true := by decide
      exact hpart
    have hapart : TypeToken.Apart (name text).lexemes ['.'] := apart_parted
      (fun list hlist => (hword list hlist).1)
      (fun list hlist => (hword list (mem_of_getLast? hlist)).2)
    exact (Option.all_eq_true _ _).2 fun lexeme hlexeme => hapart lexeme hlexeme '.' rfl
  | any => decide
  | string => rfl
  | number => cases hnumber
  | generic | tuple | object | parenthesis | optional => exact hlast _ _ (by decide)
  | array e =>
    rw [lexemes, append_cons]
    exact hlast _ _ (by decide)
  | notNullable e leading =>
    cases leading with
    | true => cases hclosed
    | false => exact hlast _ _ (by decide)
  | function parameters result arrow =>
    rw [isClosed, Bool.and_eq_true, Bool.not_eq_true', Option.isNone_iff_eq_none] at hclosed
    obtain ⟨rfl, rfl⟩ := hclosed
    rw [lexemes, if_neg Bool.false_ne_true]
    simp only [lexemesOption, Option.map_none, annotatedLexemes, append_nil]
    exact hlast (_ :: _ :: _) _ (by decide)
  | _ => cases hclosed

theorem isGrouped_withPoint {dotted : Bool} (h : type.isGrouped = true) :
    (withPoint dotted type).isGrouped = true := by
  cases type <;> exact h

/-- A formed and tight type is legible once its numbers have their points. -/
theorem legible_pointed (hformed : type.isFormed = true) (htight : type.isTight = true) :
    type.pointed.Legible := by
  refine ⟨isFormed_pointed hformed, ?_⟩
  induction type using byParts with
  | step type ih =>
    obtain ⟨-, hparts⟩ := isFormed_iff.1 hformed
    obtain ⟨hlayer, hparts'⟩ := isTight_iff.1 htight
    refine isGrouped_iff.2 ⟨?_, forall_parts_pointed isGrouped_withPoint
      fun e he => ih e he (hparts e he) (hparts' e he)⟩
    clear ih
    cases type with
    | union elements | intersection elements =>
      rw [layerTight, all_eq_true] at hlayer
      rw [pointed, pointedAll_eq_map, layerGrouped, ← map_dropLast, all_map,
        all_eq_true]
      intro e he
      have hends := hlayer e he
      simp only [Function.comp_apply, endsArrow_pointed, hends, Bool.or_true]
    | generic head arguments dotted =>
      rw [layerTight] at hlayer
      simp only [pointed, layerGrouped, Bool.and_eq_true, isClosed_withPoint, isClosed_pointed]
      refine ⟨⟨hlayer, ?_⟩, ?_⟩
      · cases hnumber : head.isNumber with
        | true => simp
        | false =>
          have hnumber' : head.pointed.isNumber = false := by rw [isNumber_pointed, hnumber]
          have hclosed : head.pointed.isClosed = true := by rw [isClosed_pointed, hlayer]
          rw [withPoint_of_not_isNumber hnumber', endsBefore_point hclosed hnumber', Bool.or_true]
      · rw [pointedAll_eq_map, getLast?_map]
        refine (Option.all_eq_true _ _).2 fun e' he' => ?_
        obtain ⟨e, he, rfl⟩ := Option.map_eq_some_iff.1 he'
        have hmem : e ∈ (generic head arguments dotted).parts := .tail _ (mem_of_getLast? he)
        refine (Option.all_eq_true _ _).2 fun lexeme hlexeme => ?_
        exact stopsBefore_of_isPlain (isFormed_pointed (hparts e hmem))
          (isPlain_pointed (isPlain_of_isTight (hparts' e hmem))) lexeme (mem_of_getLast? hlexeme)
    | array e =>
      have hclosed : e.isClosed = true := hlayer
      simp [pointed, layerGrouped, hclosed]
    | nullable e leading | notNullable e leading =>
      have hclosed : (leading || e.isClosed) = true := hlayer
      rw [Bool.or_eq_true] at hclosed
      simp only [pointed, layerGrouped, isClosed_pointed, Bool.or_eq_true]
      exact hclosed.imp_left .inl
    | typeof e => simpa [pointed, layerGrouped, layerTight] using hlayer
    | optional => cases hlayer
    | _ => rfl

end

end TypeExpr

end DocTypes
