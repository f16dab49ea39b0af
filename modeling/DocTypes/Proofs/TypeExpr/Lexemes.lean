import DocTypes.Proofs.TypeExpr.Lexing

/-!
# The tokens of a printed type

`TypeExpr.lexemes` are the lexemes that a type is printed with, and the text of a type is taken
apart into just these (`spells_print`), if the type is formed and grouped. `isGrouped` asks of each
layer that its operators apply, in the text, to the operands that they have in the tree. Printing
puts parentheses around some operands and not around others: not around the head of a generic type,
for one, and not around a function type with a result before `[]`.
-/

namespace DocTypes

open List TypeToken

namespace TypeExpr

open TypeLexeme (sign word)
open TypeToken (isNameText isNumberText isStringText Apart Spells)

/-- The lexemes, in parentheses if `loose` holds. -/
def enclosed (loose : Bool) (lexemes : List TypeLexeme) : List TypeLexeme :=
  if loose then sign "(" :: lexemes ++ [sign ")"] else lexemes

/-- Lists of lexemes with a punctuator between them. -/
def parted (mark : String) (lists : List (List TypeLexeme)) : List TypeLexeme :=
  [sign mark].intercalate lists

/-- The lexeme of a text in quotes. -/
def quotedLexeme (quote : Char) (text : String) : TypeLexeme :=
  ⟨.string, String.ofList (quote :: (text.toList ++ [quote]))⟩

/-- The lexeme of the name of a field. -/
def labelLexeme (label : String) : Option Char → TypeLexeme
  | some quote => quotedLexeme quote label
  | none => ⟨if isNumberText label.toList then .number else .name, label⟩

/-- The lexemes of a field's or a parameter's type, with the colon. -/
def annotatedLexemes : Option (List TypeLexeme) → List TypeLexeme
  | some lexemes => sign ":" :: lexemes
  | none => []

/-- An operand's lexemes with the operator `mark` before or after them. -/
def affixedLexemes (leading : Bool) (mark : String) (loose : Bool) (lexemes : List TypeLexeme) :
    List TypeLexeme :=
  if leading then sign mark :: enclosed loose lexemes else enclosed loose lexemes ++ [sign mark]

mutual

/-- The lexemes that a type is printed with. -/
def lexemes : TypeExpr → List TypeLexeme
  | .name text => parted "." ((pieces text).map fun piece => [word (String.ofList piece)])
  | .any => [sign "*"]
  | .unknown => [sign "?"]
  | .string text quote => [quotedLexeme quote text]
  | .number text => [⟨.number, text⟩]
  | .union elements => parted "|" (lexemesGrouped isArrow elements)
  | .intersection elements => parted "&" (lexemesGrouped (fun e => e.isUnion || e.isArrow) elements)
  | .generic head arguments dotted =>
    head.lexemes ++ (if dotted then [sign ".", sign "<"] else [sign "<"]) ++
      parted "," (lexemesGrouped (fun _ => false) arguments) ++ [sign ">"]
  | .array element =>
    enclosed (element.isPrefixed || element.isLow) element.lexemes ++ [sign "[", sign "]"]
  | .field label type isOptional readonly quote =>
    (if readonly then [word "readonly"] else []) ++ [labelLexeme label quote] ++
      (if isOptional then [sign "?"] else []) ++ annotatedLexemes (lexemesOption type)
  | .object fields separator =>
    sign "\x7b" :: parted separator.toString (lexemesGrouped (fun _ => false) fields) ++
      [sign "\x7d"]
  | .tuple elements =>
    sign "[" :: parted "," (lexemesGrouped (fun _ => false) elements) ++ [sign "]"]
  | .parameter label type isOptional isVariadic =>
    (if isVariadic then [sign "..."] else []) ++ [word label] ++
      (if isOptional then [sign "?"] else []) ++ annotatedLexemes (lexemesOption type)
  | .function parameters result arrow constructs =>
    let parameters :=
      sign "(" :: parted "," (lexemesGrouped (fun _ => false) parameters) ++ [sign ")"]
    if arrow then
      (if constructs then [word "new"] else []) ++ parameters ++
        sign "=>" :: (lexemesOption result).getD [word "void"]
    else
      word "function" :: parameters ++
        annotatedLexemes ((lexemesOption result).map
          (enclosed ((result.map fun r => r.isJoined || r.isArrow).getD false)))
  | .parenthesis element => enclosed true element.lexemes
  | .nullable element leading => affixedLexemes leading "?" element.isLow element.lexemes
  | .notNullable element leading => affixedLexemes leading "!" element.isLow element.lexemes
  | .optional element => affixedLexemes false "=" element.isLow element.lexemes
  | .variadic none => [sign "..."]
  | .variadic (some element) => affixedLexemes true "..." element.isLow element.lexemes
  | .typeof element => word "typeof" :: element.lexemes
  | .keyof element => word "keyof" :: enclosed (element.isJoined || element.isArrow) element.lexemes

/-- The lexemes of types, in parentheses where `loose` holds. -/
def lexemesGrouped (loose : TypeExpr → Bool) : List TypeExpr → List (List TypeLexeme)
  | [] => []
  | type :: rest => enclosed (loose type) type.lexemes :: lexemesGrouped loose rest

/-- The lexemes of a type that may be missing. -/
def lexemesOption : Option TypeExpr → Option (List TypeLexeme)
  | none => none
  | some type => some type.lexemes

end

mutual

/-- Does it end in the result of an arrow, which would take up an operator after it? -/
def endsArrow : TypeExpr → Bool
  | .union elements => endsArrowLast isArrow elements
  | .intersection elements => endsArrowLast (fun e => e.isUnion || e.isArrow) elements
  | .function _ result arrow _ => arrow || endsArrowOption (fun r => r.isJoined || r.isArrow) result
  | .nullable e leading | .notNullable e leading => leading && !e.isLow && e.endsArrow
  | .variadic element => endsArrowOption isLow element
  | .typeof e => e.endsArrow
  | .keyof e => !(e.isJoined || e.isArrow) && e.endsArrow
  | _ => false

/-- Does the last of the types end in the result of an arrow, without parentheses around it? -/
def endsArrowLast (loose : TypeExpr → Bool) : List TypeExpr → Bool
  | [] => false
  | [type] => !loose type && type.endsArrow
  | _ :: rest => endsArrowLast loose rest

/-- Does the type, if it is there, end in the result of an arrow, without parentheses around it? -/
def endsArrowOption (loose : TypeExpr → Bool) : Option TypeExpr → Bool
  | none => false
  | some type => !loose type && type.endsArrow

end

/-- Is it a type to which all of an operator sign after it applies? -/
def isClosed : TypeExpr → Bool
  | .name _ | .any | .string _ _ | .number _ | .generic _ _ _ | .array _ | .object _ _ | .tuple _
  | .parenthesis _ | .optional _ => true
  | .notNullable _ leading => !leading
  | .function _ result arrow _ => !arrow && result.isNone
  | _ => false

/-- Is it a type with `?` after it? -/
def isQuestioned : TypeExpr → Bool
  | .nullable _ leading => !leading
  | _ => false

/-- Is it a constructor type with an arrow? -/
def isConstructor : TypeExpr → Bool
  | .function _ _ arrow constructs => arrow && constructs
  | _ => false

/-- Can `c` stand right after the lexemes? -/
def endsBefore (c : Char) (lexemes : List TypeLexeme) : Bool :=
  lexemes.getLast?.all (·.stopsBefore c)

/-- Does the outermost layer print its parts with the parentheses they need? -/
def layerGrouped : TypeExpr → Bool
  | .union elements => elements.dropLast.all fun e => e.isArrow || !e.endsArrow
  | .intersection elements => elements.dropLast.all fun e => e.isUnion || e.isArrow || !e.endsArrow
  | .generic head arguments dotted =>
    head.isClosed && (!dotted || endsBefore '.' head.lexemes) &&
      arguments.getLast?.all fun e => endsBefore '>' e.lexemes
  | .array e => e.isPrefixed || e.isLow || e.isClosed
  | .nullable e leading | .notNullable e leading => leading || e.isLow || e.isClosed
  | .optional e => e.isLow || e.isClosed || e.isQuestioned
  | .typeof e => e.opening.isSome || e.isConstructor
  | _ => true

/-- Every operator in the type is printed so that it applies to what it applies to in the tree. -/
def isGrouped (type : TypeExpr) : Bool :=
  type.everywhere layerGrouped

theorem isGrouped_iff {type : TypeExpr} : type.isGrouped = true ↔
    type.layerGrouped = true ∧ ∀ part ∈ type.parts, part.isGrouped = true :=
  everywhere_iff

@[simp]
theorem lexemesGrouped_eq_map (loose : TypeExpr → Bool) (types : List TypeExpr) :
    lexemesGrouped loose types = types.map fun e => enclosed (loose e) e.lexemes := by
  induction types with
  | nil => rfl
  | cons type rest ih => rw [lexemesGrouped, map_cons, ih]

@[simp]
theorem lexemesOption_eq_map (type? : Option TypeExpr) :
    lexemesOption type? = type?.map lexemes := by
  cases type? <;> rfl

@[simp]
theorem printGrouped_eq_map (loose : TypeExpr → Bool) (types : List TypeExpr) :
    printGrouped loose types = types.map fun e => grouped (loose e) e.print := by
  induction types with
  | nil => rfl
  | cons type rest ih => rw [printGrouped, map_cons, ih]

@[simp]
theorem printOption_eq_map (type? : Option TypeExpr) : printOption type? = type?.map print := by
  cases type? <;> rfl

/-- A name is made up of its pieces. -/
theorem intercalate_pieces (text : String) :
    ".".intercalate ((pieces text).map String.ofList) = text := by
  have hpieces : ['.'].intercalate (pieces text) = text.toList := intercalate_splitOn _
  rw [← String.toList_inj, String.toList_intercalate]
  simpa using hpieces

@[simp]
theorem enclosed_false (lexemes : List TypeLexeme) : enclosed false lexemes = lexemes :=
  rfl

@[simp]
theorem enclosed_true (lexemes : List TypeLexeme) :
    enclosed true lexemes = sign "(" :: lexemes ++ [sign ")"] :=
  rfl

theorem enclosed_ne_nil {loose : Bool} {lexemes : List TypeLexeme} (h : lexemes ≠ []) :
    enclosed loose lexemes ≠ [] := by
  cases loose
  · exact h
  · simp [enclosed]

theorem parted_cons (mark : String) (first : List TypeLexeme) (rest : List (List TypeLexeme)) :
    parted mark (first :: rest) = first ++ rest.flatMap (sign mark :: ·) := by
  induction rest generalizing first with
  | nil => simp [parted]
  | cons second rest ih =>
    have := ih second
    rw [parted] at this ⊢
    rw [intercalate_cons_cons, this]
    simp

/-- No operand of brackets is printed in parentheses twice. -/
theorem grouped_grouped (type : TypeExpr) (text : String) :
    grouped type.isPrefixed (grouped (type.isLoose || type.isArrow) text) =
      grouped (type.isPrefixed || type.isLow) text := by
  cases hprefixed : type.isPrefixed with
  | false => rfl
  | true =>
    have hlow : (type.isLoose || type.isArrow) = false := by
      cases type <;> first | rfl | cases hprefixed
    rw [hlow, Bool.true_or]
    rfl

/-- Every type has lexemes. -/
theorem lexemes_ne_nil {type : TypeExpr} (h : type.isFormed = true) : type.lexemes ≠ [] := by
  induction type using byParts with
  | step type ih =>
    have hparts := isFormed_iff.1 h
    cases type with
    | name text =>
      rw [lexemes]
      cases hpieces : pieces text with
      | nil => exact absurd hpieces (splitOn_ne_nil _ _)
      | cons piece rest => simp [parted_cons]
    | union elements | intersection elements =>
      cases elements with
      | nil => simp [layerFormed] at hparts
      | cons e rest =>
        have he := ih e (.head _) (hparts.2 e (.head _))
        simp [lexemes, parted_cons, enclosed_ne_nil he]
    | parameter | field | typeof | keyof | string | number | any | unknown | array | generic
    | object | tuple => simp [lexemes]
    | function parameters result arrow => cases arrow <;> simp [lexemes]
    | parenthesis | optional => simp [lexemes, enclosed, affixedLexemes]
    | nullable e leading | notNullable e leading =>
      cases leading <;> simp [lexemes, affixedLexemes]
    | variadic e => cases e <;> simp [lexemes, affixedLexemes]

section
variable {text : String} {ls : List TypeLexeme}

/-- A text in parentheses has its lexemes in parentheses. -/
theorem spells_grouped (h : Spells text.toList ls) (loose : Bool) :
    Spells (grouped loose text).toList (enclosed loose ls) := by
  cases loose with
  | false => exact h
  | true =>
    have hclosed : Spells (text.toList ++ [')']) (ls ++ [sign ")"]) :=
      h.closed (p := ")")
    simpa [grouped, enclosed] using hclosed.mark (p := "(") (by simp)

/-- The text separates types, and makes one punctuator. -/
structure Separates (gap : List Char) (mark : String) : Prop where
  starts : ∀ c ∈ gap.head?, TypeLexeme.isBreak c = true
  ne_nil : gap ≠ []
  lexes : ∀ {rest later}, TypeToken.Lexes rest later →
    TypeToken.Lexes (gap ++ rest) (sign mark :: later)

/-- A punctuator with blanks around it separates types. -/
theorem separates_spaced {p : String} (h : TypeToken.IsMark p := by decide) :
    Separates (' ' :: (p.toList ++ [' '])) p where
  starts c hc := by
    cases hc
    decide
  ne_nil := cons_ne_nil _ _
  lexes hrest := by
    have := (hrest.blank (c := ' ') (by decide)).mark h
    simpa using this.blank (c := ' ') (by decide)

/-- A comma or a semicolon, with a blank after it, separates types. -/
theorem separates_close {c : Char} (h : c = ',' ∨ c = ';') : Separates [c, ' '] c.toString where
  starts d hd := by
    cases hd
    rcases h with rfl | rfl <;> decide
  ne_nil := cons_ne_nil _ _
  lexes hrest := by
    have hblank := hrest.blank (c := ' ') (by decide)
    rcases h with rfl | rfl
    · exact hblank.mark (p := ",")
    · exact hblank.mark (p := ";")

/-- Types with a separator between them have their lexemes with a punctuator between them. -/
theorem spells_parted {gap mark : String} (hgap : Separates gap.toList mark) {types : List TypeExpr}
    (h : ∀ type ∈ types, Spells type.print.toList type.lexemes ∧ type.lexemes ≠ [])
    (loose : TypeExpr → Bool) :
    Spells (gap.intercalate (printGrouped loose types)).toList
      (parted mark (lexemesGrouped loose types)) := by
  rw [printGrouped_eq_map, lexemesGrouped_eq_map, String.toList_intercalate]
  induction types with
  | nil => exact fun _ _ hrest _ => hrest
  | cons type types ih =>
    obtain ⟨⟨htype, hne⟩, htypes⟩ := forall_mem_cons.1 h
    have hfirst := spells_grouped htype (loose type)
    cases types with
    | nil => simpa [parted] using hfirst
    | cons second types =>
      intro rest later hrest hapart
      have hne : parted mark ((second :: types).map fun e =>
          enclosed (loose e) e.lexemes) ≠ [] := by
        simp [parted_cons, enclosed_ne_nil (htypes second (.head _)).2]
      have hwhole :
        parted mark ((type :: second :: types).map fun e => enclosed (loose e) e.lexemes) =
          enclosed (loose type) type.lexemes ++ [sign mark] ++
            parted mark ((second :: types).map fun e => enclosed (loose e) e.lexemes) := by
        simp [parted, intercalate_cons_cons]
      rw [hwhole] at hapart ⊢
      have hlater := hgap.lexes (ih htypes _ _ hrest ((apart_append hne).1 hapart))
      have := hfirst _ _ hlater (TypeToken.apart_of_starts hgap.ne_nil hgap.starts _)
      simpa [intercalate_cons_cons] using this

/-- What may stand right after the last of lists with a punctuator between them. -/
theorem apart_parted {mark : String} {lists : List (List TypeLexeme)} {rest : List Char}
    (hne : ∀ list ∈ lists, list ≠ []) (h : ∀ list ∈ lists.getLast?, Apart list rest) :
    Apart (parted mark lists) rest := by
  induction lists with
  | nil => exact fun _ hmem => nomatch hmem
  | cons first lists ih =>
    cases lists with
    | nil => simpa [parted] using h
    | cons second lists =>
      have hlater := (forall_mem_cons.1 hne).2
      rw [parted, intercalate_cons_cons]
      refine (apart_append ?_).2 (ih hlater (by simpa using h))
      have := hlater second (.head _)
      change parted mark (second :: lists) ≠ []
      simp [parted_cons, this]

/-- Names with points between them. -/
theorem spells_dotted {names : List (List Char)} (hne : names ≠ [])
    (h : ∀ text ∈ names, isNameText text = true) :
    Spells (['.'].intercalate names)
      (parted "." (names.map fun text => [word (String.ofList text)])) := by
  induction names with
  | nil => exact absurd rfl hne
  | cons first names ih =>
    obtain ⟨hfirst, hnames⟩ := forall_mem_cons.1 h
    have hword : Spells first [word (String.ofList first)] := by
      simpa using @spells_name (String.ofList first) (by simpa using hfirst)
    cases names with
    | nil => simpa [parted] using hword
    | cons second names =>
      have hpoint : Spells ('.' :: ['.'].intercalate (second :: names)) (sign "." ::
          parted "." ((second :: names).map fun text => [word (String.ofList text)])) := by
        intro rest later hrest hapart
        rw [← singleton_append, apart_append (by simp [parted_cons])] at hapart
        refine (ih (cons_ne_nil _ _) hnames _ _ hrest hapart).sign (p := ".") (by decide)
          fun c hc => ?_
        -- what starts a name is no point
        have hsecond := hnames second (.head _)
        cases second with
        | nil => cases hsecond
        | cons d second =>
          simp only [isNameText, Bool.and_eq_true] at hsecond
          have hc : c = d := by
            cases names <;> simpa [intercalate_cons_cons, eq_comm] using hc
          have hpoint : c ≠ '.' := by
            rintro rfl
            exact absurd (hc ▸ hsecond.1.1) (by decide)
          simp [TypeLexeme.stopsBefore, sign, hpoint]
      have := hword.append hpoint (cons_ne_nil _ _) fun _ lexeme hlexeme c hc => by
        cases hlexeme
        cases hc
        exact (by decide : (!TypeToken.isNamePart '.') = true)
      simpa [parted, intercalate_cons_cons] using this

/-- What may stand right after lexemes. -/
theorem apart_of_endsBefore {c : Char} {rest : List Char} (h : endsBefore c ls = true) :
    Apart ls (c :: rest) := by
  intro lexeme hlexeme d hd
  cases hd
  exact (Option.all_eq_true _ _).1 h lexeme hlexeme

/-- The name of a field. -/
theorem spells_label {label : String} {type : Option TypeExpr} {isOptional readonly : Bool}
    {quote : Option Char} (h : (field label type isOptional readonly quote).layerFormed = true) :
    Spells (((quote.map Char.toString).getD "") ++ label ++
      ((quote.map Char.toString).getD "")).toList
      [labelLexeme label quote] := by
  cases quote with
  | some quote =>
    simp only [layerFormed, Bool.and_eq_true] at h
    intro rest later hrest _
    simpa [labelLexeme, quotedLexeme] using TypeToken.Lexes.string h.2 hrest
  | none =>
    simp only [layerFormed, Bool.and_eq_true] at h
    by_cases hnumber : isNumberText label.toList = true
    · simpa [labelLexeme, hnumber] using spells_number hnumber
    · have hname : isNameText label.toList = true := by simpa [hnumber] using h.2
      simpa [labelLexeme, hnumber, word] using spells_name hname

/-- A text with a type after it. -/
theorem spells_annotated {label : List Char} {labelLexemes : List TypeLexeme}
    (hlabel : Spells label labelLexemes) (h : Spells text.toList ls) (hne : ls ≠ []) :
    Spells (label ++ (annotated (some text)).toList)
      (labelLexemes ++ annotatedLexemes (some ls)) := by
  have := hlabel.then (h.spaced.mark (p := ":") hne)
  simpa [annotated, annotatedLexemes] using this

/-- A name with a mark and a type after it, both of which may be missing. -/
theorem spells_labelled {label : String} {labelLexeme : TypeLexeme} {type? : Option TypeExpr}
    (hlabel : Spells label.toList [labelLexeme])
    (htype : ∀ type ∈ type?, Spells type.print.toList type.lexemes ∧ type.lexemes ≠ [])
    (isOptional : Bool) :
    Spells (label ++ (if isOptional then "?" else "") ++ annotated (type?.map print)).toList
      ([labelLexeme] ++ (if isOptional then [sign "?"] else []) ++
        annotatedLexemes (type?.map lexemes)) := by
  have hmarked : Spells (label ++ if isOptional then "?" else "").toList
      ([labelLexeme] ++ if isOptional then [sign "?"] else []) := by
    cases isOptional with
    | false => simpa using hlabel
    | true => simpa using hlabel.closed (p := "?")
  cases type? with
  | none => simpa [annotated, annotatedLexemes] using hmarked
  | some type =>
    simpa using spells_annotated hmarked (htype type rfl).1 (htype type rfl).2

/-- An operand with an operator before it. -/
theorem spells_prefixed {type : TypeExpr} {p : String}
    (h : Spells type.print.toList type.lexemes ∧ type.lexemes ≠ [])
    (hp : TypeToken.IsMark p := by decide) :
    Spells (affixed true p type type.print).toList
      (affixedLexemes true p type.isLow type.lexemes) := by
  simpa [affixed, affixedLexemes, isLow] using
    (spells_grouped h.1 type.isLow).mark (enclosed_ne_nil h.2) hp

/-- An operand with an operator after it. -/
theorem spells_suffixed {type : TypeExpr} {p : String} (h : Spells type.print.toList type.lexemes)
    (hp : p ∈ TypeToken.punctuators := by decide) (hne : p.toList ≠ [] := by decide)
    (hstarts : p.toList.head?.all TypeLexeme.isBreak = true := by decide) :
    Spells (affixed false p type type.print).toList
      (affixedLexemes false p type.isLow type.lexemes) := by
  intro rest later hrest hapart
  have hsign := hrest.sign hp (hapart (sign p) (by simp [affixedLexemes]))
  have := spells_grouped h type.isLow _ _ hsign
    (TypeToken.apart_of_starts hne ((Option.all_eq_true _ _).1 hstarts) _)
  simpa [affixed, affixedLexemes, isLow] using this

end

/-- A printed type is taken apart into its lexemes. -/
theorem spells_print {type : TypeExpr} (hformed : type.isFormed = true)
    (hgrouped : type.isGrouped = true) : Spells type.print.toList type.lexemes := by
  induction type using byParts with
  | step type ih =>
    obtain ⟨hlayer, hparts⟩ := isFormed_iff.1 hformed
    obtain ⟨hlayer', hparts'⟩ := isGrouped_iff.1 hgrouped
    have hspells : ∀ part ∈ type.parts, Spells part.print.toList part.lexemes :=
      fun part hpart => ih part hpart (hparts part hpart) (hparts' part hpart)
    have hlists : ∀ part ∈ type.parts, Spells part.print.toList part.lexemes ∧ part.lexemes ≠ [] :=
      fun part hpart => ⟨hspells part hpart, lexemes_ne_nil (hparts part hpart)⟩
    have hcomma : Separates ", ".toList "," := separates_close (.inl rfl)
    cases type with
    | name text =>
      have := spells_dotted (splitOn_ne_nil '.' text.toList) (all_eq_true.1 hlayer)
      rwa [intercalate_splitOn] at this
    | any | unknown => exact spells_mark
    | string text quote =>
      intro rest later hrest _
      have := TypeToken.Lexes.string hlayer hrest
      simpa [print, lexemes, quotedLexeme] using this
    | number text => exact spells_number hlayer
    | union elements =>
      rw [print, lexemes]
      refine spells_parted ?_ hlists _
      exact separates_spaced (p := "|")
    | intersection elements =>
      rw [print, lexemes]
      refine spells_parted ?_ hlists _
      exact separates_spaced (p := "&")
    | generic head arguments dotted =>
      obtain ⟨⟨hhead, -⟩, hargs⟩ := forall_mem_cons.1 hlists
      simp only [layerGrouped, Bool.and_eq_true, Bool.or_eq_true, Bool.not_eq_true'] at hlayer'
      obtain ⟨⟨-, hpoint⟩, hlast⟩ := hlayer'
      have hgreater := (spells_parted hcomma hargs fun _ => false).append
        (spells_mark (p := ">")) (cons_ne_nil _ _) fun rest => by
          refine apart_parted ?_ ?_
          · simpa [enclosed] using fun type htype => (hargs type htype).2
          · simpa [enclosed, getLast?_map] using fun type htype =>
              apart_of_endsBefore ((Option.all_eq_true _ _).1 hlast type htype)
      have hopen := hgreater.mark (p := "<") (by simp)
      cases dotted with
      | false =>
        have := hhead.then hopen
        simpa [print, lexemes] using this
      | true =>
        have hsign : Spells ['.'] [sign "."] :=
          fun rest later hrest hapart => hrest.sign (p := ".") (by decide) (hapart _ rfl)
        have hdot := hsign.append hopen (cons_ne_nil _ _) fun rest lexeme hlexeme c hc => by
          cases hlexeme
          cases hc
          exact (by decide : (sign ".").stopsBefore '<' = true)
        have := hhead.append hdot (cons_ne_nil _ _)
          fun _ => apart_of_endsBefore (hpoint.resolve_left (by rintro ⟨⟩))
        simpa [print, lexemes] using this
    | array element =>
      have := ((spells_grouped (hspells element (.head _))
        (element.isPrefixed || element.isLow)).closed
        (p := "[")).closed (p := "]")
      rw [print, grouped_grouped]
      simpa [lexemes] using this
    | nullable element leading | notNullable element leading =>
      have helement := hlists element (.head _)
      cases leading with
      | true => exact spells_prefixed helement
      | false => exact spells_suffixed helement.1
    | optional element => exact spells_suffixed (hspells element (.head _))
    | variadic element =>
      cases element with
      | none => exact spells_mark
      | some element => exact spells_prefixed (hlists element (.head _))
    | typeof element =>
      simpa [print, lexemes] using (hspells element (.head _)).keyword (hlists element (.head _)).2
        (p := "typeof")
    | keyof element =>
      simpa [print, lexemes] using (spells_grouped (hspells element (.head _))
        (element.isJoined || element.isArrow)).keyword
        (enclosed_ne_nil (hlists element (.head _)).2)
          (p := "keyof")
    | parenthesis element =>
      have := spells_grouped (hspells element (.head _)) true
      simpa [print, lexemes, grouped] using this
    | tuple elements =>
      have := ((spells_parted hcomma hlists fun _ => false).closed (p := "]")).mark
        (p := "[") (by simp)
      simpa [print, lexemes, parts] using this
    | object fields separator =>
      simp only [layerFormed, Bool.and_eq_true, Bool.or_eq_true, beq_iff_eq] at hlayer
      have hgap : Separates (separator.toString ++ " ").toList separator.toString := by
        simpa using separates_close hlayer.2
      have := ((spells_parted hgap hlists fun _ => false).closed (p := "\x7d")).mark (p := "\x7b")
        (by simp)
      simpa [print, lexemes, parts] using this
    | field label type isOptional readonly quote =>
      have hlabelled := spells_labelled (spells_label hlayer)
        (fun e he => hlists e (Option.mem_toList.2 he)) isOptional
      cases readonly with
      | false => simpa [print, lexemes] using hlabelled
      | true => simpa [print, lexemes] using hlabelled.keyword (by simp) (p := "readonly")
    | parameter label type isOptional isVariadic =>
      simp only [layerFormed, Bool.and_eq_true] at hlayer
      have hlabelled := spells_labelled (spells_name hlayer.1)
        (fun e he => hlists e (Option.mem_toList.2 he)) isOptional
      cases isVariadic with
      | false => simpa [print, lexemes] using hlabelled
      | true => simpa [print, lexemes] using hlabelled.mark (p := "...") (by simp)
    | function parameters result arrow constructs =>
      have hparameters := fun e he => hlists e (mem_append_left _ he)
      have hresult := fun e he => hlists e (mem_append_right _ (Option.mem_toList.2 he))
      have hbracket :=
        ((spells_parted hcomma hparameters fun _ => false).closed (p := ")")).mark
          (p := "(") (by simp)
      cases arrow with
      | true =>
        simp only [layerFormed, Bool.and_eq_true, if_true] at hlayer
        obtain ⟨type, rfl⟩ := Option.isSome_iff_exists.1 hlayer.2.2
        obtain ⟨hspells, hne⟩ := hresult type rfl
        have hwhole := hbracket.then (hspells.spaced.mark (p := "=>") hne).spaced
        cases constructs with
        | false => simpa [print, lexemes] using hwhole
        | true => simpa [print, lexemes] using hwhole.keyword (by simp) (p := "new")
      | false =>
        have hname := (@spells_name "function" (by decide)).then hbracket
        cases result with
        | none => simpa [print, lexemes, annotated, annotatedLexemes] using hname
        | some type =>
          obtain ⟨hspells, hne⟩ := hresult type rfl
          have := spells_annotated hname (spells_grouped hspells (type.isJoined || type.isArrow))
            (enclosed_ne_nil hne)
          simpa [print, lexemes, annotated, annotatedLexemes] using this

end TypeExpr

end DocTypes
