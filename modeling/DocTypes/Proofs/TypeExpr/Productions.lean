import DocTypes.Proofs.TypeExpr.Brackets
import DocTypes.Proofs.TypeExpr.Starts
import DocTypes.Proofs.TypeExpr.Reread

/-!
# What the productions of types give

What each production of the reader gives on the lexemes of a printed type, over a reader one level
down that reads its parts back (`ReadsType`). What follows a type is at an end or starts with one of
a few signs (`Halts`), which says that no production takes more than the type.
-/

namespace DocTypes

open List

open TypeLexeme (sign word)

namespace TypeReader

open TypeExpr

/-- The signs that end a type. -/
def closers : List String :=
  [",", ")", "]", "\x7d", ">", ";"]

/-- No type starts with a sign that ends one. -/
theorem is_of_mem_closers {lexeme : TypeLexeme} {text : String} (h : canStart lexeme = true)
    (htext : text ∈ closers) : lexeme.is text = false := by
  have hall : (closers.all fun text =>
      !canStart (sign text) && !TypeToken.isNameText text.toList) = true := by decide
  have := all_eq_true.1 hall text htext
  simp only [Bool.and_eq_true, Bool.not_eq_true'] at this
  exact is_of_canStart h this.1 this.2

/-- The lexemes are at an end, or start with one of the signs. -/
def Halts (signs : List String) (lexemes : List TypeLexeme) : Prop :=
  ∀ lexeme ∈ lexemes.head?, ∃ text ∈ signs, lexeme = sign text

section
variable {signs signs' : List String} {lexemes rest : List TypeLexeme} {text : String}

theorem Halts.mono (h : Halts signs lexemes) (hsub : signs ⊆ signs') : Halts signs' lexemes :=
  fun lexeme hlexeme =>
    let ⟨text, htext, heq⟩ := h lexeme hlexeme
    ⟨text, hsub htext, heq⟩

theorem halts_sign (h : text ∈ signs) : Halts signs (sign text :: rest) := by
  intro lexeme hlexeme
  cases hlexeme
  exact ⟨text, h, rfl⟩

/-- A sign that does not end the lexemes is not next. -/
theorem Halts.is_eq_false (h : Halts signs lexemes) (htext : text ∉ signs) :
    (TypeLexeme.peek lexemes 0).is text = false := by
  cases lexemes with
  | nil => simp [TypeLexeme.peek, TypeLexeme.is, TypeLexeme.last]
  | cons lexeme lexemes =>
    obtain ⟨other, hother, rfl⟩ := h lexeme rfl
    rw [TypeLexeme.peek_zero, TypeLexeme.is_sign, beq_eq_false_iff_ne]
    rintro rfl
    exact htext hother

theorem Halts.text_ne (h : Halts signs lexemes) (htext : text ∉ signs) (hend : text ≠ "") :
    (TypeLexeme.peek lexemes 0).text ≠ text := by
  cases lexemes with
  | nil => exact hend.symm
  | cons lexeme lexemes =>
    obtain ⟨other, hother, rfl⟩ := h lexeme rfl
    rintro rfl
    exact htext hother

/-- Where only signs end the lexemes, none that terminates is missing. -/
theorem Halts.terminates (h : Halts signs lexemes) (hsub : signs ⊆ terminators) :
    terminators.contains (TypeLexeme.peek lexemes 0).text = true := by
  cases lexemes with
  | nil => decide
  | cons lexeme lexemes =>
    obtain ⟨other, hother, rfl⟩ := h lexeme rfl
    simpa using hsub hother

end

/-- What stands after a word at the start of a type. -/
theorem peek_one_of_starts {type : TypeExpr} {lexeme : TypeLexeme} {more rest : List TypeLexeme}
    {signs : List String} {text : String} (h : type.Starts lexeme more) (hword : lexeme = word text)
    (hkind : type.isPostfix = true ∨ text ∉ ["typeof", "keyof"]) (hrest : Halts signs rest)
    (hcolon : ":" ∉ signs) :
    (TypeLexeme.peek (type.lexemes ++ rest) 1).kind ≠ .name ∧
      (TypeLexeme.peek (type.lexemes ++ rest) 1).text ≠ ":" := by
  rw [h.lexemes, cons_append, TypeLexeme.peek_one]
  have hsign : ∀ lexeme ∈ (more ++ rest).head?, ∃ text, lexeme = sign text ∧ text ≠ ":" := by
    cases more with
    | nil =>
      intro lexeme hlexeme
      obtain ⟨other, hother, rfl⟩ := hrest lexeme hlexeme
      exact ⟨other, rfl, fun heq => hcolon (heq ▸ hother)⟩
    | cons second more => exact h.next text hword hkind
  cases hlater : more ++ rest with
  | nil => exact ⟨by decide, by decide⟩
  | cons second later =>
    obtain ⟨other, rfl, hother⟩ := hsign second (by rw [hlater]; rfl)
    exact ⟨by simp [sign], hother⟩

/-- The reader one level down reads the type back, wherever it ends. -/
def ReadsType (recur : TypeGoal → TypeReader TypeExpr) (type : TypeExpr) : Prop :=
  ∀ ⦃rest⦄, Halts closers rest → Gives (recur .type) (type.lexemes ++ rest) type.reread rest

section
variable {recur : TypeGoal → TypeReader TypeExpr} {type value : TypeExpr} {rest : List TypeLexeme}

/-- No operator follows. -/
theorem gives_suffix_stop (h : Halts (["|", "&"] ++ closers) rest) :
    Gives (suffix recur type) rest none rest := by
  have hmiss : ∀ {text}, text ∉ ["|", "&"] ++ closers →
      (TypeLexeme.peek rest 0).is text = false := fun htext => h.is_eq_false htext
  refine gives_miss_both (hmiss (by decide)) (gives_ahead? 1 "]")
    (gives_pass (hmiss (by decide)) ?_)
  refine gives_miss_both (hmiss (by decide)) (gives_ahead? 1 "<") ?_
  refine gives_miss_both (hmiss (by decide)) gives_terminated ?_
  exact gives_pass (hmiss (by decide)) (gives_pass (hmiss (by decide)) gives_pure)

/-- Square brackets follow. -/
theorem gives_suffix_array :
    Gives (suffix recur type) (sign "[" :: sign "]" :: rest) (some (.array type)) rest :=
  gives_see_both (by simp) (gives_ahead? 1 "]") (gives_skip (gives_skip gives_pure))

/-- Arguments follow in angle brackets. -/
theorem gives_suffix_generic {arguments : List TypeExpr} {lexemes : List TypeLexeme}
    (hlist : Gives (listUpTo recur ">") lexemes arguments rest) :
    Gives (suffix recur type) (sign "<" :: lexemes)
      (some (.generic type arguments false)) rest := by
  refine gives_miss_both (by simp) (gives_ahead? 1 "]") (gives_take (by simp) ?_)
  exact hlist.bind gives_pure

/-- Arguments follow in angle brackets after a point. -/
theorem gives_suffix_dotted {arguments : List TypeExpr} {lexemes : List TypeLexeme}
    (hlist : Gives (listUpTo recur ">") lexemes arguments rest) :
    Gives (suffix recur type) (sign "." :: sign "<" :: lexemes)
      (some (.generic type arguments true)) rest := by
  refine gives_miss_both (by simp) (gives_ahead? 1 "]") (gives_pass (by simp) ?_)
  refine gives_see_both (by simp) (gives_ahead? 1 "<") (gives_skip (gives_skip ?_))
  exact hlist.bind gives_pure

/-- A question mark follows that ends the type. -/
theorem gives_suffix_nullable (hrest : terminators.contains (TypeLexeme.peek rest 0).text = true) :
    Gives (suffix recur type) (sign "?" :: rest) (some (.nullable type false)) rest := by
  refine gives_miss_both (by simp) (gives_ahead? 1 "]") (gives_pass (by simp) ?_)
  refine gives_miss_both (by simp) (gives_ahead? 1 "<") ?_
  refine gives_see_both (by simp) ?_ (gives_skip gives_pure)
  rw [← hrest]
  exact gives_terminated

/-- An exclamation mark follows. -/
theorem gives_suffix_notNullable :
    Gives (suffix recur type) (sign "!" :: rest) (some (.notNullable type false)) rest := by
  refine gives_miss_both (by simp) (gives_ahead? 1 "]") (gives_pass (by simp) ?_)
  refine gives_miss_both (by simp) (gives_ahead? 1 "<") ?_
  exact gives_miss_both (by simp) gives_terminated (gives_take (by simp) gives_pure)

/-- An equals sign follows. -/
theorem gives_suffix_optional :
    Gives (suffix recur type) (sign "=" :: rest) (some (.optional type)) rest := by
  refine gives_miss_both (by simp) (gives_ahead? 1 "]") (gives_pass (by simp) ?_)
  refine gives_miss_both (by simp) (gives_ahead? 1 "<") ?_
  refine gives_miss_both (by simp) gives_terminated (gives_pass (by simp) ?_)
  exact gives_take (by simp) gives_pure

theorem gives_any : Gives (primary recur) (sign "*" :: rest) .any rest :=
  gives_current_bind fun _ => gives_skip gives_pure

theorem gives_string (text : String) (quote : Char) :
    Gives (primary recur) (quotedLexeme quote text :: rest) (.string text quote) rest := by
  refine gives_current_bind fun _ => gives_advance_bind fun token htoken => ?_
  have htext : unquote token.text = (text, quote) := by
    rw [← TypeToken.text_lexeme, htoken]
    simp [quotedLexeme, unquote]
  rw [htext]
  exact gives_pure

theorem gives_number (text : String) :
    Gives (primary recur) (⟨.number, text⟩ :: rest) (.number text) rest := by
  refine gives_current_bind fun _ => gives_advance_bind fun token htoken => ?_
  rw [show token.text = text from congrArg TypeLexeme.text htoken]
  exact gives_pure

/-- A type in parentheses, after which no arrow stands. -/
theorem gives_parenthesis {lexemes : List TypeLexeme} (hbalanced : Balanced lexemes)
    (hrest : (TypeLexeme.peek rest 0).text ≠ "=>")
    (h : Gives (recur .type) (lexemes ++ sign ")" :: rest) type (sign ")" :: rest)) :
    Gives (primary recur) (sign "(" :: (lexemes ++ sign ")" :: rest)) (.parenthesis type) rest := by
  refine gives_current_bind fun _ => gives_get_bind fun cursor hcursor => ?_
  have harrow : arrowFollows 0 cursor.pending = false := by
    rw [arrowFollows_eq, hcursor.pending, arrowAhead, if_pos (by rfl), hbalanced, arrowAhead,
      if_neg (by decide), if_pos (by rfl), if_pos (by rfl)]
    simpa using hrest
  rw [harrow]
  exact gives_skip (h.bind ((gives_expect _).bind gives_pure))

/-- The names after points. -/
theorem gives_dottedRest (names : List String)
    (hrest : ¬((TypeLexeme.peek rest 0).is "." = true ∧ (TypeLexeme.peek rest 1).kind = .name)) :
    Gives dottedRest (names.flatMap (fun text => [sign ".", word text]) ++ rest) names rest := by
  refine Turns.gives ?_
  induction names with
  | nil =>
    refine .stop ((gives_at? ".").bind (gives_peek_bind fun token htoken => ?_))
    rw [if_neg]
    · exact gives_pure
    · rw [← TypeToken.kind_lexeme, htoken]
      simpa using hrest
  | cons text names ih =>
    refine .more ?_ ?_ ih
    · refine (gives_at? ".").bind (gives_peek_bind fun token htoken => ?_)
      rw [if_pos]
      · refine gives_skip (gives_advance_bind fun token htoken => ?_)
        rw [show token.text = text from congrArg TypeLexeme.text htoken]
        exact gives_pure
      · rw [← TypeToken.kind_lexeme, htoken]
        rfl
    · rw [flatMap_cons, length_append, length_append, length_append]
      have : 0 < [sign ".", word text].length := Nat.zero_lt_succ _
      omega

variable {later : List TypeLexeme} {close : String} {types : List TypeExpr} {separator : Char}

/-- A name that is no word before a parenthesis. -/
theorem gives_name {first : String} {names : List String} (hfirst : first ∉ ["*", "(", "\x7b", "["])
    (hlater : (TypeLexeme.peek later 0).text ≠ "(") (h : Gives dottedRest later names rest) :
    Gives (primary recur) (word first :: later)
      (.name (".".intercalate (first :: names))) rest := by
  refine gives_current_bind fun offset => ?_
  have hsign :
      ∀ text ∈ ["*", "(", "\x7b", "["], TypeToken.is ⟨.name, first, offset⟩ text = false := by
    intro text htext
    have : first ≠ text := fun heq => hfirst (heq ▸ htext)
    simp [TypeToken.is, this]
  have hcall : Gives (ahead? 1 "(") (word first :: later) false (word first :: later) := by
    have := @gives_ahead? (word first :: later) 1 "("
    rwa [TypeLexeme.peek_one, beq_eq_false_iff_ne.2 hlater] at this
  refine gives_else (hsign "*" (by decide)) (gives_else (hsign "(" (by decide)) ?_)
  refine gives_else (hsign "\x7b" (by decide)) (gives_else (hsign "[" (by decide)) ?_)
  refine hcall.bind (gives_else (Bool.and_false _) (hcall.bind (gives_else (Bool.and_false _) ?_)))
  exact gives_skip (h.bind gives_pure)

/-- Types with commas between them. -/
theorem gives_listUpTo (hclose : close ∈ closers) (hcomma : close ≠ ",")
    (hstarts : ∀ e ∈ types, ∀ rest, canStart (TypeLexeme.peek (e.lexemes ++ rest) 0) = true)
    (h : ∀ e ∈ types, ReadsType recur e) :
    Gives (listUpTo recur close) (parted "," (types.map lexemes) ++ sign close :: rest)
      (types.map reread) rest := by
  have hhalts : ∀ types : List TypeExpr, Halts closers
      ((types.map lexemes).flatMap (sign "," :: ·) ++ sign close :: rest) := by
    intro types
    cases types with
    | nil => exact halts_sign hclose
    | cons => exact halts_sign (by decide)
  rw [listUpTo]
  cases types with
  | nil => exact gives_take (by simp) gives_pure
  | cons first types =>
    obtain ⟨hfirst, htypes⟩ := forall_mem_cons.1 h
    obtain ⟨hstart, hlater⟩ := forall_mem_cons.1 hstarts
    rw [map_cons, parted_cons, append_assoc]
    refine gives_pass (is_of_mem_closers (hstart _) hclose) ((hfirst (hhalts types)).bind ?_)
    refine (Turns.gives ?_).bind ((gives_expect _).bind gives_pure)
    clear h hfirst hstart hstarts
    induction types with
    | nil =>
      refine .stop ((gives_eat_not ?_).bind gives_pure)
      simpa using hcomma
    | cons second types ih =>
      obtain ⟨hsecond, htypes⟩ := forall_mem_cons.1 htypes
      obtain ⟨hstart, hlater⟩ := forall_mem_cons.1 hlater
      rw [map_cons, flatMap_cons, cons_append, cons_append, append_assoc]
      refine .more ?_ ?_ (ih htypes hlater)
      · refine (gives_eat (by simp)).bind (gives_miss (is_of_mem_closers (hstart _) hclose) ?_)
        exact (hsecond (hhalts types)).bind gives_pure
      · simp only [length_cons, length_append]
        omega

/-- Items of which all but the last are followed by a separator. -/
theorem turns_listed {α : Type} {round : TypeReader (Option (α × Bool))} {mark : String}
    {more last : TypeExpr → α}
    (hstop : ∀ rest, Gives round (sign close :: rest) none (sign close :: rest))
    (hmore : ∀ e ∈ types, ∀ rest,
      Gives round (e.lexemes ++ sign mark :: rest) (some (more e, true)) rest)
    (hlast : ∀ e ∈ types, ∀ rest,
      Gives round (e.lexemes ++ sign close :: rest) (some (last e, false)) (sign close :: rest)) :
    Turns round (parted mark (types.map lexemes) ++ sign close :: rest)
      (types.dropLast.map more ++ types.getLast?.toList.map last) (sign close :: rest) := by
  induction types with
  | nil => exact .stop (hstop rest)
  | cons first types ih =>
    obtain ⟨hfirst, hmore⟩ := forall_mem_cons.1 hmore
    obtain ⟨hfirst', hlast⟩ := forall_mem_cons.1 hlast
    cases types with
    | nil => simpa [parted] using Turns.last (hfirst' rest)
    | cons second types =>
      have hwhole : parted mark ((first :: second :: types).map lexemes) ++
          sign close :: rest = first.lexemes ++ sign mark ::
            (parted mark ((second :: types).map lexemes) ++ sign close :: rest) := by
        simp [parted, intercalate_cons_cons]
      rw [hwhole]
      refine .more (hfirst _) ?_ (ih hmore hlast)
      simp only [length_append, length_cons]
      omega

theorem dropLast_append_toList (types : List TypeExpr) :
    types.dropLast ++ types.getLast?.toList = types := by
  cases hlast : types.getLast? with
  | none =>
    rw [getLast?_eq_none_iff.1 hlast]
    rfl
  | some last => exact dropLast_append_getLast? last hlast

/-- Items that end with a comma, all but the last. -/
theorem turns_commas {round : TypeReader (Option (TypeExpr × Bool))} (hclose : close ∈ closers)
    (hcomma : close ≠ ",")
    (hstop : ∀ rest, Gives round (sign close :: rest) none (sign close :: rest))
    (hitem : ∀ e ∈ types, ∀ {rest taken out}, Halts closers rest → Gives (eat ",") rest taken out →
      Gives round (e.lexemes ++ rest) (some (e.reread, taken)) out) :
    Turns round (parted "," (types.map lexemes) ++ sign close :: rest)
      (types.map reread) (sign close :: rest) := by
  have hmap : types.map reread =
      types.dropLast.map reread ++ types.getLast?.toList.map reread := by
    rw [← map_append, dropLast_append_toList]
  rw [hmap]
  exact turns_listed hstop
    (fun e he _ => hitem e he (halts_sign (by decide : "," ∈ closers)) (gives_eat (by simp)))
    (fun e he _ => hitem e he (halts_sign hclose) (gives_eat_not (by simpa using hcomma)))

/-- The type of a field or of a parameter, if it is there. -/
theorem gives_annotated {type? : Option TypeExpr}
    (h : ∀ e ∈ type?, ReadsType recur e)
    (hrest : Halts closers rest) :
    Gives (annotation? recur) (annotatedLexemes (type?.map lexemes) ++ rest)
      (type?.map reread) rest := by
  cases type? with
  | none => exact gives_pass (hrest.is_eq_false (by decide)) gives_pure
  | some e => exact gives_take (by simp) ((h e rfl hrest).bind gives_pure)

/-- The mark of an optional field or parameter. -/
theorem gives_mark (isOptional : Bool) (type? : Option (List TypeLexeme))
    (hrest : Halts closers rest) :
    Gives (eat "?") ((if isOptional then [sign "?"] else []) ++ (annotatedLexemes type? ++ rest))
      isOptional (annotatedLexemes type? ++ rest) := by
  cases isOptional with
  | true => exact gives_eat (by simp)
  | false =>
    refine gives_eat_not ?_
    cases type? with
    | none => exact hrest.is_eq_false (by decide)
    | some ls => rfl

/-- A function type with an arrow. -/
theorem gives_arrowType {parameters : List TypeExpr} {result : TypeExpr} (constructs : Bool)
    (hform : ∀ p ∈ parameters, p.isParameter = true ∧ p.layerFormed = true)
    (hparts : ∀ p ∈ parameters, ∀ e ∈ p.parts, ReadsType recur e)
    (hresult : ReadsType recur result) (hrest : Halts closers rest) :
    Gives (arrowType recur constructs)
      (sign "(" :: (parted "," (parameters.map lexemes) ++
        sign ")" :: sign "=>" :: (result.lexemes ++ rest)))
      (.function (parameters.map reread) (some result.reread) true constructs) rest := by
  rw [arrowType]
  refine (gives_expect _).bind (Gives.bind (Turns.gives (turns_commas (by decide) (by decide)
    (fun _ => gives_see (by simp) gives_pure) fun p hp rest taken out hrest hcomma => ?_))
    ((gives_expect _).bind ((gives_expect _).bind ((hresult hrest).bind gives_pure))))
  obtain ⟨hparameter, hlayer⟩ := hform p hp
  have htypes := hparts p hp
  cases p with
  | parameter label type isOptional isVariadic =>
    simp only [layerFormed, Bool.and_eq_true] at hlayer
    have htype : ∀ e ∈ type, ReadsType recur e := fun e he => htypes e (Option.mem_toList.2 he)
    have hlabel : canStart (word label) = true := hlayer.1
    have hlexemes : (TypeExpr.parameter label type isOptional isVariadic).lexemes ++ rest =
        (if isVariadic then [sign "..."] else []) ++ word label ::
          ((if isOptional then [sign "?"] else []) ++
            (annotatedLexemes (type.map lexemes) ++ rest)) := by
      simp [lexemes]
    have hreread : (TypeExpr.parameter label type isOptional isVariadic).reread =
        .parameter label (type.map reread) isOptional isVariadic := by
      simp [reread, covered]
    have hdots : ∀ later, Gives (eat "...")
        ((if isVariadic then [sign "..."] else []) ++ word label :: later) isVariadic
        (word label :: later) := by
      intro later
      cases isVariadic with
      | true => exact gives_eat (by simp)
      | false => exact gives_eat_not (is_word_of_isNameText hlayer.1 (by decide))
    rw [hlexemes, hreread]
    refine gives_miss ?_ ((hdots _).bind
      (gives_current_bind fun _ => gives_advance_bind fun token htoken => ?_))
    · cases isVariadic with
      | true => rfl
      | false => exact is_of_mem_closers hlabel (by decide)
    · rw [show token.text = label from congrArg TypeLexeme.text htoken]
      refine (gives_mark isOptional _ hrest).bind ((gives_annotated htype hrest).bind ?_)
      exact gives_pure.bind (hcomma.bind gives_pure)
  | _ => cases hparameter

/-- A function type that starts with the word `function`. -/
theorem gives_functionType {parameters : List TypeExpr} {result : Option TypeExpr}
    (hform : ∀ p ∈ parameters, p.isOperand = true ∨ p.isReceiver = true)
    (hstarts : ∀ p ∈ parameters, p.isOperand = true → ∃ lexeme more, p.Starts lexeme more)
    (hparameters : ∀ p ∈ parameters, p.isOperand = true → ReadsType recur p)
    (hparts : ∀ p ∈ parameters, p.isOperand = false → ∀ e ∈ p.parts, ReadsType recur e)
    (hresult : Gives (do if ← eat ":" then return some (← recur .operand) else return none)
      later result rest) :
    Gives (functionType recur)
      (word "function" :: sign "(" :: (parted "," (parameters.map lexemes) ++
        sign ")" :: later))
      (.function (parameters.map reread) result false false) rest := by
  rw [functionType]
  refine gives_skip
    ((gives_expect _).bind (Gives.bind (Turns.gives (turns_commas (by decide) (by decide)
    (fun _ => gives_see (by simp) gives_pure) fun p hp rest taken out hrest hcomma => ?_))
    ((gives_expect _).bind (hresult.bind gives_pure))))
  by_cases hoperand : p.isOperand = true
  · obtain ⟨lexeme, more, hstarts⟩ := hstarts p hp hoperand
    have hlexemes : p.lexemes ++ rest = lexeme :: (more ++ rest) := by rw [hstarts.lexemes]; rfl
    have hfirst : (TypeLexeme.peek (p.lexemes ++ rest) 0).is ")" = false := by
      rw [hlexemes]
      exact is_of_mem_closers hstarts.starts (by decide)
    refine gives_miss hfirst ?_
    -- a word that a receiver could start with is followed by no colon
    have hreceiver : ((lexeme.is "this" || lexeme.is "new") &&
        (TypeLexeme.peek (p.lexemes ++ rest) 1).text == ":") = false := by
      rw [Bool.and_eq_false_iff, beq_eq_false_iff_ne]
      refine or_iff_not_imp_left.2 fun hword => ?_
      rw [Bool.not_eq_false, Bool.or_eq_true] at hword
      rcases hword with hword | hword
      · exact (peek_one_of_starts hstarts (eq_word_of_is hstarts.starts (by decide) hword)
          (.inr (by decide)) hrest (by decide)).2
      · exact (peek_one_of_starts hstarts (eq_word_of_is hstarts.starts (by decide) hword)
          (.inr (by decide)) hrest (by decide)).2
    have htype := hparameters p hp hoperand hrest
    rw [hlexemes] at hreceiver htype ⊢
    exact gives_current_bind fun offset =>
      Gives.bind ((gives_ahead? 1 ":").bind (gives_else hreceiver htype)) (hcomma.bind gives_pure)
  · have hreceiver := (hform p hp).resolve_left hoperand
    have htypes := hparts p hp (Bool.not_eq_true _ ▸ hoperand)
    match p, hreceiver with
    | .parameter label (some type) false false, hreceiver =>
      have hlexemes : (TypeExpr.parameter label (some type) false false).lexemes ++ rest =
          word label :: sign ":" :: (type.lexemes ++ rest) := by
        simp [lexemes, annotatedLexemes]
      have hreread : (TypeExpr.parameter label (some type) false false).reread =
          .parameter label (some type.reread) false false := rfl
      have hlabel : ((word label).is "this" || (word label).is "new") = true := by
        simpa [isReceiver] using hreceiver
      have hclose : (word label).is ")" = false := by
        simp only [isReceiver, Bool.or_eq_true, beq_iff_eq] at hreceiver
        rcases hreceiver with rfl | rfl <;> rfl
      rw [hlexemes, hreread]
      refine gives_miss hclose (gives_current_bind fun offset => Gives.bind
        ((gives_ahead? 1 ":").bind (gives_then ?_ (gives_skip (gives_skip
          ((htypes type (.head _) hrest).bind gives_pure))))) (hcomma.bind gives_pure))
      rw [Bool.and_eq_true]
      exact ⟨hlabel, rfl⟩

/-- The name of a field. -/
theorem gives_fieldName (label : String) (quote : Option Char) :
    Gives fieldName (labelLexeme label quote :: rest) (label, quote) rest := by
  cases quote with
  | some quote =>
    refine gives_current_bind fun _ => gives_advance_bind fun token htoken => ?_
    have htext : unquote token.text = (label, quote) := by
      rw [← TypeToken.text_lexeme, htoken]
      simp [labelLexeme, quotedLexeme, unquote]
    rw [htext]
    exact gives_pure
  | none =>
    have hadvance : Gives (do return ((← advance).text, none))
        (labelLexeme label none :: rest) (label, (none : Option Char)) rest := by
      refine gives_advance_bind fun token htoken => ?_
      rw [show token.text = label from congrArg TypeLexeme.text htoken]
      exact gives_pure
    refine gives_current_bind fun _ => ?_
    have hkind : (labelLexeme label none).kind = .number ∨
        (labelLexeme label none).kind = .name := by
      rw [labelLexeme]
      split
      · exact .inl rfl
      · exact .inr rfl
    rcases hkind with hkind | hkind <;> rw [hkind] <;> exact hadvance

/-- What follows a field in an object type. -/
def fieldEnd (field : TypeExpr) : TypeReader (Option ((TypeExpr × Option String) × Bool)) := do
  if (← at? ",") || (← at? ";") then
    let separator := (← advance).text
    return some ((field, some separator), true)
  else return some ((field, none), false)

theorem gives_fieldEnd_more (field : TypeExpr) (h : separator = ',' ∨ separator = ';') :
    Gives (fieldEnd field) (sign separator.toString :: rest)
      (some ((field, some separator.toString), true)) rest := by
  refine (gives_at? ",").bind ((gives_at? ";").bind (gives_then ?_ ?_))
  · rcases h with rfl | rfl <;> rfl
  · refine gives_advance_bind fun token htoken => ?_
    rw [show token.text = separator.toString from congrArg TypeLexeme.text htoken]
    exact gives_pure

theorem gives_fieldEnd_last (field : TypeExpr) :
    Gives (fieldEnd field) (sign "\x7d" :: rest) (some ((field, none), false))
      (sign "\x7d" :: rest) :=
  (gives_at? ",").bind ((gives_at? ";").bind (gives_else rfl gives_pure))

/-- Fields with what follows each of them. -/
def separated (separator : Char) (fields : List TypeExpr) : List (TypeExpr × Option String) :=
  fields.dropLast.map (fun field => (field.reread, some separator.toString)) ++
    fields.getLast?.toList.map fun field => (field.reread, none)

theorem map_fst_separated (separator : Char) (fields : List TypeExpr) :
    (separated separator fields).map (·.1) = fields.map reread := by
  rw [separated, map_append, map_map, map_map]
  change fields.dropLast.map reread ++ fields.getLast?.toList.map reread = _
  rw [← map_append, dropLast_append_toList]

/-- Fields that end with a separator, all but the last. -/
theorem turns_fields {round : TypeReader (Option ((TypeExpr × Option String) × Bool))}
    (hseparator : separator = ',' ∨ separator = ';') {fields : List TypeExpr}
    (hstop : ∀ rest, Gives round (sign "\x7d" :: rest) none (sign "\x7d" :: rest))
    (hitem : ∀ f ∈ fields, ∀ {rest item out}, Halts closers rest →
      Gives (fieldEnd f.reread) rest item out → Gives round (f.lexemes ++ rest) item out) :
    Turns round (parted separator.toString (fields.map lexemes) ++
        sign "\x7d" :: rest)
      (separated separator fields) (sign "\x7d" :: rest) := by
  refine turns_listed hstop
    (fun f hf _ => hitem f hf ?_ (gives_fieldEnd_more _ hseparator))
    (fun f hf _ => hitem f hf (halts_sign (by decide)) (gives_fieldEnd_last _))
  rcases hseparator with rfl | rfl <;> exact halts_sign (by decide)

/-- The word before a field that is not to be written. -/
theorem gives_readonly {label : String} {type : Option TypeExpr} {isOptional readonly : Bool}
    {quote : Option Char}
    (hform : (TypeExpr.field label type isOptional readonly quote).layerFormed = true)
    (hlater : ∀ lexeme ∈ later.head?, ∃ text, lexeme = sign text) :
    Gives (do
        let next := (← peek 1).kind
        if (← at? "readonly") && (next == .name || next == .string) then
          let _ ← advance
          return true
        else return false)
      ((if readonly then [word "readonly"] else []) ++ labelLexeme label quote :: later)
      readonly (labelLexeme label quote :: later) := by
  refine gives_peek_bind fun token htoken => ?_
  have hkind : token.kind = (TypeLexeme.peek ((if readonly then [word "readonly"] else []) ++
      labelLexeme label quote :: later) 1).kind := congrArg TypeLexeme.kind htoken
  rw [hkind]
  cases readonly with
  | true =>
    refine (gives_at? "readonly").bind (gives_then ?_ (gives_skip gives_pure))
    have hlabel : ((labelLexeme label quote).kind == .name ||
        (labelLexeme label quote).kind == .string) = true := by
      cases quote with
      | some quote => rfl
      | none =>
        have hname : TypeToken.isNameText label.toList = true := by
          simp only [layerFormed, Bool.and_eq_true] at hform
          simpa using hform.2
        simp [labelLexeme, TypeToken.isNumberText_of_isNameText hname]
    simpa using hlabel
  | false =>
    refine (gives_at? "readonly").bind (gives_else ?_ gives_pure)
    have hnext :
        (TypeLexeme.peek later 0).kind ≠ .name ∧ (TypeLexeme.peek later 0).kind ≠ .string := by
      cases later with
      | nil => exact ⟨by decide, by decide⟩
      | cons lexeme later =>
        obtain ⟨text, rfl⟩ := hlater lexeme rfl
        exact ⟨by simp [sign], by simp [sign]⟩
    simp [hnext]

/-- The name of a field can start a type. -/
theorem canStart_labelLexeme {label : String} {type : Option TypeExpr} {isOptional readonly : Bool}
    {quote : Option Char}
    (h : (TypeExpr.field label type isOptional readonly quote).layerFormed = true) :
    canStart (labelLexeme label quote) = true := by
  cases quote with
  | some quote =>
    simp only [layerFormed, Bool.and_eq_true] at h
    exact canStart_quotedLexeme h.2
  | none =>
    simp only [layerFormed, Bool.and_eq_true] at h
    by_cases hnumber : TypeToken.isNumberText label.toList = true
    · simp [canStart, labelLexeme, hnumber]
    · have hname : TypeToken.isNameText label.toList = true := by simpa [hnumber] using h.2
      simp [canStart, labelLexeme, hnumber, hname]

/-- An object type. -/
theorem gives_objectType {fields : List TypeExpr} (hseparator : separator = ',' ∨ separator = ';')
    (hform : ∀ f ∈ fields, f.isField = true ∧ f.layerFormed = true)
    (hparts : ∀ f ∈ fields, ∀ e ∈ f.parts, ReadsType recur e) :
    Gives (objectType recur)
      (sign "\x7b" :: (parted separator.toString (fields.map lexemes) ++
        sign "\x7d" :: rest))
      (.object (fields.map reread) (if fields.length ≤ 1 then ',' else separator)) rest := by
  rw [objectType]
  refine (gives_expect _).bind (Gives.bind (Turns.gives (turns_fields hseparator
    (fun _ => gives_see (by simp) gives_pure) fun f hf rest item out hrest hend => ?_))
    ((gives_expect _).bind ?_))
  · obtain ⟨hfield, hlayer⟩ := hform f hf
    have htypes := hparts f hf
    cases f with
    | field label type isOptional readonly quote =>
      have htype : ∀ e ∈ type, ReadsType recur e := fun e he => htypes e (Option.mem_toList.2 he)
      have hlexemes : (TypeExpr.field label type isOptional readonly quote).lexemes ++ rest =
          (if readonly then [word "readonly"] else []) ++ labelLexeme label quote ::
            ((if isOptional then [sign "?"] else []) ++
              (annotatedLexemes (type.map lexemes) ++ rest)) := by
        simp [lexemes]
      have hreread : (TypeExpr.field label type isOptional readonly quote).reread =
          .field label (type.map reread) isOptional readonly quote := by
        simp [reread, covered]
      rw [hreread] at hend
      rw [hlexemes]
      refine gives_miss ?_ ((gives_readonly hlayer ?_).bind ((gives_fieldName label quote).bind
        ((gives_mark isOptional _ hrest).bind ((gives_annotated htype hrest).bind hend))))
      · cases readonly with
        | true => rfl
        | false => exact is_of_mem_closers (canStart_labelLexeme hlayer) (by decide)
      · cases isOptional with
        | true => exact fun lexeme hlexeme => ⟨"?", by cases hlexeme; rfl⟩
        | false =>
          cases type with
          | some e => exact fun lexeme hlexeme => ⟨":", by cases hlexeme; rfl⟩
          | none =>
            intro lexeme hlexeme
            obtain ⟨text, _, heq⟩ := hrest lexeme hlexeme
            exact ⟨text, heq⟩
    | _ => cases hfield
  · obtain _ | ⟨first, _ | ⟨second, later⟩⟩ := fields
    · exact gives_pure
    · exact gives_pure
    · dsimp only
      rw [map_fst_separated]
      rcases hseparator with rfl | rfl <;> exact gives_pure

end

end TypeReader

end DocTypes
