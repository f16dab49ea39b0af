import DocTypes.Proofs.TypeExpr.Legible

/-!
# Reading printed types back

The text of every legible type is read back, one case for each kind of type (`readsBack_parts`). So
reading what was printed gives the tree that differs from the printed one in grouping only
(`read_print`).
-/

namespace DocTypes

open List

open TypeLexeme (sign word)

namespace TypeReader

open TypeExpr

section
variable {type : TypeExpr}

/-- A type in parentheses. -/
theorem ReadsBack.parenthesis (h : ReadsBack type) (hoperand : type.isOperand = true) :
    ReadsBack (.parenthesis type) := by
  refine readsBack_of_trail (h.toLegible.parenthesis hoperand) rfl fun {m rest} hlength hrest => ?_
  have harrow : (TypeLexeme.peek rest 0).text ≠ "=>" :=
    hrest.halts.text_ne (by decide) (by decide)
  have hlength' : type.lexemes.length ≤ m := by
    simp only [lexemes, enclosed_true, cons_append, length_cons,
      length_append] at hlength
    omega
  have hread :=
    h.readsType hoperand hlength' (halts_sign (by decide) : Halts closers (sign ")" :: rest))
  have hlexemes : (TypeExpr.parenthesis type).lexemes ++ rest =
      sign "(" :: (type.lexemes ++ sign ")" :: rest) := by
    simp [lexemes]
  rw [hlexemes]
  exact trail_of_primary (gives_parenthesis (balanced_lexemes h.formed) harrow hread)

/-- A type that may stand in parentheses. -/
theorem ReadsBack.covered (h : ReadsBack type) {l : Bool}
    (hoperand : l = true → type.isOperand = true) : ReadsBack (TypeExpr.covered l type) := by
  cases l with
  | false => exact h
  | true => exact h.parenthesis (hoperand rfl)

variable {mark : String} {rest : List TypeLexeme} {e : TypeExpr} {loose : Bool}
  {elements parameters : List TypeExpr} {result : Option TypeExpr}

/-- An operator sign applies to all of a closed type before it. -/
theorem trails_of_isClosed (h : type.isClosed = true) (hmark : mark ∈ ["[", "<", "?", "!", "="]) :
    Trails type (sign mark :: rest) := by
  rw [Trails, if_pos h]
  exact .inl (halts_sign (mem_append_left _ (mem_append_left ["|", "&"] hmark)))

/-- An operator after a type. -/
theorem ReadsBack.affixed (h : ReadsBack e) (hlegible : type.Legible) (hpost : e.isPostfix = true)
    (htype : type.isPostfix = true) {signs : List TypeLexeme} (hsigns : signs ≠ [])
    (hlexemes : type.lexemes = e.lexemes ++ signs)
    (htrails : ∀ rest, Trails type rest → Trails e (signs ++ rest))
    (hstep : ∀ {m rest}, type.lexemes.length ≤ m + 1 → Trails type rest →
      Gives (suffix (level m) e.reread) (signs ++ rest) (some type.reread) rest) :
    ReadsBack type := by
  refine readsBack_of_trail hlegible htype fun {m rest} hlength hrest => ?_
  have hlength' : e.lexemes.length ≤ m + 1 := by
    have hle : e.lexemes.length ≤ type.lexemes.length := by
      rw [hlexemes, length_append]
      exact Nat.le_add_right _ _
    exact Nat.le_trans hle hlength
  rw [hlexemes, append_assoc]
  refine (h.asTrail hpost hlength' (htrails rest hrest)).step ?_ (hstep hlength hrest)
  rw [length_append]
  have := length_pos_iff.2 hsigns
  omega

theorem readsBack_name {text : String} (h : (TypeExpr.name text).Legible) :
    ReadsBack (.name text) := by
  refine readsBack_of_trail h rfl fun {m rest} _ hrest => ?_
  have hnames := h.layerFormed
  have hjoin := intercalate_pieces text
  simp only [layerFormed] at hnames
  cases hpieces : pieces text with
  | nil => exact absurd hpieces (splitOn_ne_nil _ _)
  | cons first pieces =>
    rw [hpieces] at hnames hjoin
    have hfirst := (all_eq_true.1 hnames) first (.head _)
    have hlexemes : (TypeExpr.name text).lexemes ++ rest = word (String.ofList first) ::
        ((pieces.map String.ofList).flatMap (fun piece => [sign ".", word piece]) ++ rest) := by
      simp [lexemes, hpieces, parted_cons, flatMap_map]
    have hpoint :
        ¬((TypeLexeme.peek rest 0).is "." = true ∧ (TypeLexeme.peek rest 1).kind = .name) := by
      rw [Trails, if_pos (by rfl)] at hrest
      rcases hrest with hrest | ⟨later, rfl⟩
      · rw [hrest.is_eq_false (by decide)]
        rintro ⟨⟨⟩, -⟩
      · rintro ⟨-, ⟨⟩⟩
    have hcall : (TypeLexeme.peek ((pieces.map String.ofList).flatMap
        (fun piece => [sign ".", word piece]) ++ rest) 0).text ≠ "(" := by
      cases pieces with
      | nil => exact hrest.halts.text_ne (by decide) (by decide)
      | cons =>
        change "." ≠ "("
        decide
    have hword : String.ofList first ∉ ["*", "(", "\x7b", "["] := by
      intro hmem
      have hall :
          (["*", "(", "\x7b", "["].all fun text => !TypeToken.isNameText text.toList) = true := by
        decide
      have := all_eq_true.1 hall _ hmem
      simp [hfirst] at this
    rw [hlexemes, reread]
    refine trail_of_primary ?_
    rw [← hjoin]
    exact gives_name hword hcall (gives_dottedRest _ hpoint)

theorem readsBack_generic {head : TypeExpr} {arguments : List TypeExpr} {dotted : Bool}
    (h : (TypeExpr.generic head arguments dotted).Legible) (hhead : ReadsBack head)
    (harguments : ∀ e ∈ arguments, ReadsBack e) : ReadsBack (.generic head arguments dotted) := by
  have hlayer := h.layerFormed
  have hlayer' := h.layerGrouped
  simp only [layerFormed, Bool.and_eq_true, all_eq_true] at hlayer
  simp only [layerGrouped, Bool.and_eq_true] at hlayer'
  obtain ⟨⟨hclosed, -⟩, -⟩ := hlayer'
  have hlexemes : (TypeExpr.generic head arguments dotted).lexemes = head.lexemes ++
      ((if dotted then [sign ".", sign "<"] else [sign "<"]) ++
        (parted "," (arguments.map lexemes) ++ [sign ">"])) := by
    simp [lexemes]
  refine hhead.affixed h (isPostfix_of_isClosed hclosed) rfl (by simp) hlexemes
    (fun rest _ => ?_) fun {m rest} hlength _ => ?_
  · cases dotted with
    | false => exact trails_of_isClosed hclosed (by decide)
    | true =>
      rw [Trails, if_pos hclosed]
      exact .inr ⟨_, rfl⟩
  · have hlist : Gives (listUpTo (level m) ">")
        (parted "," (arguments.map lexemes) ++ sign ">" :: rest)
        (arguments.map reread) rest := by
      refine gives_listUpTo (by decide) (by decide)
        (fun e he => (harguments e he).canStart (isType_of_isOperand (hlayer.2 e he)))
        fun e he => (harguments e he).readsType (hlayer.2 e he) ?_
      have hle := length_le_parted "," he
      rw [hlexemes, length_append, length_append, length_append] at hlength
      have : 0 < (if dotted = true then [sign ".", sign "<"] else [sign "<"]).length := by
        cases dotted <;> decide
      omega
    have hreread : (TypeExpr.generic head arguments dotted).reread =
        .generic head.reread (arguments.map reread) dotted := by
      rw [reread, rereadAll_single]
    rw [hreread]
    cases dotted with
    | false => simpa using gives_suffix_generic hlist
    | true => simpa using gives_suffix_dotted hlist

/-- What stands in parentheses where it has to is closed. -/
theorem isClosed_covered (h : loose = true ∨ type.isClosed = true) :
    (covered loose type).isClosed = true := by
  cases loose with
  | true => rfl
  | false => exact h.resolve_left nofun

/-- An operator after a closed type, or after a type in parentheses. -/
theorem ReadsBack.closedAffixed (he : ReadsBack e) (h : type.Legible)
    (htype : type.isPostfix = true) (hloose : loose = true → e.isOperand = true)
    (hclosed : loose = true ∨ e.isClosed = true) (mark : String) (more : List TypeLexeme)
    (hmark : mark ∈ ["[", "<", "?", "!", "="])
    (hlexemes : type.lexemes = enclosed loose e.lexemes ++ sign mark :: more)
    (hstep : ∀ {m rest}, Trails type rest →
      Gives (suffix (level m) (TypeExpr.covered loose e.reread)) (sign mark :: more ++ rest)
        (some type.reread) rest) :
    ReadsBack type := by
  have hclosed' := isClosed_covered hclosed
  refine (he.covered hloose).affixed h (isPostfix_of_isClosed hclosed') htype
    (cons_ne_nil _ _) (by rw [hlexemes, lexemes_covered])
    (fun rest _ => trails_of_isClosed hclosed' hmark) fun _ hrest => ?_
  rw [reread_covered]
  exact hstep hrest

theorem readsBack_array (h : (TypeExpr.array e).Legible) (he : ReadsBack e) :
    ReadsBack (.array e) :=
  he.closedAffixed h rfl (isOperand_of_isBound h.layerFormed)
    (by simpa [layerGrouped] using h.layerGrouped) "[" [sign "]"] (by decide)
    (by rw [lexemes]) fun _ => gives_suffix_array

theorem readsBack_nullable (h : (TypeExpr.nullable e false).Legible) (he : ReadsBack e) :
    ReadsBack (.nullable e false) := by
  refine he.closedAffixed h rfl (isOperand_of_isLow h.layerFormed)
    (by simpa [layerGrouped] using h.layerGrouped) "?" [] (by decide)
    (by rw [lexemes]; rfl) fun hrest => gives_suffix_nullable ?_
  have hhalts : Halts (["=", "|", "&"] ++ closers) _ := hrest
  exact hhalts.terminates (by decide)

theorem readsBack_notNullable (h : (TypeExpr.notNullable e false).Legible) (he : ReadsBack e) :
    ReadsBack (.notNullable e false) :=
  he.closedAffixed h rfl (isOperand_of_isLow h.layerFormed)
    (by simpa [layerGrouped] using h.layerGrouped) "!" [] (by decide)
    (by rw [lexemes]; rfl) fun _ => gives_suffix_notNullable

theorem readsBack_optional (h : (TypeExpr.optional e).Legible) (he : ReadsBack e) :
    ReadsBack (.optional e) := by
  have hgrouped : (e.isLow = true ∨ e.isClosed = true) ∨ e.isQuestioned = true := by
    simpa [layerGrouped] using h.layerGrouped
  rcases hgrouped with hclosed | hquestioned
  · exact he.closedAffixed h rfl (isOperand_of_isLow h.layerFormed) hclosed "=" [] (by decide)
      (by rw [lexemes]; rfl) fun _ => gives_suffix_optional
  · cases e with
    | nullable e leading =>
      cases leading with
      | true => cases hquestioned
      | false =>
        refine he.affixed h rfl rfl (cons_ne_nil (sign "=") []) rfl (fun rest _ => ?_)
          fun _ _ => gives_suffix_optional
        have hhalts : Halts (["=", "|", "&"] ++ closers) (sign "=" :: rest) :=
          halts_sign (by decide)
        exact hhalts
    | _ => cases hquestioned

theorem readsBack_tuple (h : (TypeExpr.tuple elements).Legible)
    (helements : ∀ e ∈ elements, ReadsBack e) : ReadsBack (.tuple elements) := by
  have hlayer := h.layerFormed
  simp only [layerFormed, all_eq_true] at hlayer
  have hlexemes : (TypeExpr.tuple elements).lexemes =
      sign "[" :: (parted "," (elements.map lexemes) ++ [sign "]"]) := by
    simp [lexemes]
  refine readsBack_of_trail h rfl fun {m rest} hlength hrest => trail_of_primary ?_
  rw [hlexemes, length_cons, length_append] at hlength
  rw [hlexemes, cons_append, append_assoc, reread, rereadAll_single]
  refine gives_current_bind fun _ => gives_skip (Gives.bind (gives_listUpTo (by decide) (by decide)
    (fun e he => (helements e he).canStart (isType_of_isOperand (hlayer e he)))
    fun e he => (helements e he).readsType (hlayer e he) ?_) gives_pure)
  have hle := length_le_parted "," he
  omega

theorem readsBack_object {fields : List TypeExpr} {separator : Char}
    (h : (TypeExpr.object fields separator).Legible)
    (hparts : ∀ f ∈ fields, ∀ e ∈ f.parts, ReadsBack e) : ReadsBack (.object fields separator) := by
  have hlayer := h.layerFormed
  simp only [layerFormed, Bool.and_eq_true, all_eq_true, Bool.or_eq_true,
    beq_iff_eq] at hlayer
  have hfields : ∀ f ∈ fields, f.layerFormed = true := fun f hf => (h.part f hf).layerFormed
  have hlexemes : (TypeExpr.object fields separator).lexemes = sign "\x7b" ::
      (parted separator.toString (fields.map lexemes) ++ [sign "\x7d"]) := by
    simp [lexemes]
  refine readsBack_of_trail h rfl fun {m rest} hlength hrest => trail_of_primary ?_
  rw [hlexemes, length_cons, length_append] at hlength
  rw [hlexemes, cons_append, append_assoc, reread, rereadAll_single]
  refine gives_current_bind fun _ => gives_objectType hlayer.2
    (fun f hf => ⟨hlayer.1 f hf, hfields f hf⟩) fun f hf e he => ?_
  obtain ⟨hoperand, hle⟩ := isOperand_of_annotated (hfields f hf)
    (isType_of_isField (hlayer.1 f hf)) he
  have hle' := length_le_parted separator.toString hf
  have hlength' : e.lexemes.length ≤ m := by omega
  exact (hparts f hf e he).readsType hoperand hlength'

variable {constructs : Bool} {lexeme : TypeLexeme} {item : TypeReader TypeExpr}
  {split : TypeExpr → List TypeExpr} {types : List TypeExpr}

/-- A function type with an arrow. -/
theorem readsBack_arrow (h : (TypeExpr.function parameters result true constructs).Legible)
    (hresult : ∀ e ∈ result, ReadsBack e) (hparts : ∀ p ∈ parameters, ∀ e ∈ p.parts, ReadsBack e) :
    ReadsBack (.function parameters result true constructs) := by
  have hlayer := h.layerFormed
  simp only [layerFormed, Bool.and_eq_true, if_true, all_eq_true] at hlayer
  obtain ⟨hoperand, hparameters, hsome⟩ := hlayer
  obtain ⟨result, rfl⟩ := Option.isSome_iff_exists.1 hsome
  have hformed : ∀ p ∈ parameters, p.Legible := fun p hp => h.part p (mem_append_left _ hp)
  have hlexemes : (TypeExpr.function parameters (some result) true constructs).lexemes =
      (if constructs then [word "new"] else []) ++
        sign "(" :: (parted "," (parameters.map lexemes) ++
          sign ")" :: sign "=>" :: result.lexemes) := by
    simp [lexemes]
  have hreread : (TypeExpr.function parameters (some result) true constructs).reread =
      .function (parameters.map reread) (some result.reread) true constructs := by
    rw [reread, rereadAll_single]
    rfl
  have hbalanced : Balanced (parted "," (parameters.map lexemes)) := by
    refine composes_balanced.parted (balanced_nil.cons rfl) (forall_mem_map.2 ?_)
    exact fun p hp => balanced_lexemes (hformed p hp).formed
  refine readsBack_of_trail h rfl fun {m rest} hlength hrest => trail_of_primary ?_
  have hhalts : Halts closers rest := hrest
  rw [hlexemes, length_append, length_cons, length_append, length_cons,
    length_cons] at hlength
  have hread : Gives (arrowType (level m) constructs)
      (sign "(" :: (parted "," (parameters.map lexemes) ++
        sign ")" :: sign "=>" :: (result.lexemes ++ rest)))
      (.function (parameters.map reread) (some result.reread) true constructs) rest := by
    refine gives_arrowType constructs (fun p hp => ⟨hparameters p hp, (hformed p hp).layerFormed⟩)
      (fun p hp e he => ?_) ((hresult result rfl).readsType hoperand (by omega)) hhalts
    obtain ⟨hoperand, hle⟩ := isOperand_of_annotated (hformed p hp).layerFormed
      (isType_of_isParameter (hparameters p hp)) he
    have hle' := length_le_parted "," hp
    have hlength' : e.lexemes.length ≤ m := by omega
    exact (hparts p hp e he).readsType hoperand hlength'
  have htext : (TypeExpr.function parameters (some result) true constructs).lexemes ++ rest =
      (if constructs then [word "new"] else []) ++
        sign "(" :: (parted "," (parameters.map lexemes) ++
          sign ")" :: sign "=>" :: (result.lexemes ++ rest)) := by
    rw [hlexemes]
    simp
  rw [htext, hreread]
  cases constructs with
  | true => exact gives_current_bind fun _ => (gives_ahead? 1 "(").bind (gives_skip hread)
  | false =>
    refine gives_current_bind fun _ => gives_get_bind fun cursor hcursor => ?_
    have harrow : arrowFollows 0 cursor.pending = true := by
      rw [arrowFollows_eq, hcursor.pending]
      exact hbalanced _ _
    rw [harrow]
    exact hread

/-- The operand of an operator before it. -/
theorem ReadsBack.below (h : ReadsBack e) (hoperand : e.isOperand = true)
    (hloose : loose = true ∨ e.isJoined = false) {m : Nat}
    (hlength : (enclosed loose e.lexemes).length ≤ m)
    (hrest : Halts (signsAfter (TypeExpr.covered loose e) ["|", "&"]) rest) :
    Gives (level m .operand) (enclosed loose e.lexemes ++ rest)
      (TypeExpr.covered loose e.reread) rest := by
  rw [← lexemes_covered] at hlength ⊢
  rw [← reread_covered]
  have hcovered := h.covered (l := loose) fun _ => hoperand
  cases loose with
  | true => exact hcovered.operandBelow rfl rfl hlength hrest
  | false => exact hcovered.operandBelow hoperand (hloose.resolve_left nofun) hlength hrest

/-- The result of a function type without an arrow. -/
theorem gives_result (hresult : ∀ e ∈ result, ReadsBack e) (hoperand : result.all isOperand = true)
    {m : Nat}
    (hlength : (annotatedLexemes (result.map fun r =>
      enclosed (r.isJoined || r.isArrow) r.lexemes)).length ≤ m + 1)
    (hrest : Trails (.function parameters result false false) rest) :
    Gives (do if ← eat ":" then return some (← level m .operand) else return none)
      (annotatedLexemes (result.map fun r =>
        enclosed (r.isJoined || r.isArrow) r.lexemes) ++ rest)
      (result.map fun r => covered (r.isJoined || r.isArrow) r.reread) rest := by
  cases result with
  | none => exact gives_pass (hrest.halts.is_eq_false (by decide)) gives_pure
  | some r =>
    have harrow : (TypeExpr.function parameters (some r) false false).endsArrow =
        (covered (r.isJoined || r.isArrow) r).endsArrow := by
      rw [endsArrow_covered]
      rfl
    have hhalts : Halts (signsAfter (.function parameters (some r) false false) ["|", "&"]) rest :=
      hrest
    rw [signsAfter_congr harrow] at hhalts
    have hloose : (r.isJoined || r.isArrow) = true ∨ r.isJoined = false := by
      cases r.isJoined
      · exact .inr rfl
      · exact .inl rfl
    exact gives_take rfl (((hresult r rfl).below hoperand hloose (Nat.le_of_succ_le_succ hlength)
      hhalts).bind gives_pure)

/-- A function type that starts with the word `function`. -/
theorem readsBack_function (h : (TypeExpr.function parameters result false constructs).Legible)
    (hparameters : ∀ p ∈ parameters, ReadsBack p) (hresult : ∀ e ∈ result, ReadsBack e)
    (hparts : ∀ p ∈ parameters, ∀ e ∈ p.parts, ReadsBack e) :
    ReadsBack (.function parameters result false constructs) := by
  have hlayer := h.layerFormed
  simp only [layerFormed, Bool.and_eq_true, Bool.false_eq_true, if_false, all_eq_true,
    Bool.not_eq_true', Bool.or_eq_true] at hlayer
  obtain ⟨hoperand, rfl, hform⟩ := hlayer
  have hlexemes : (TypeExpr.function parameters result false false).lexemes =
      word "function" :: sign "(" :: (parted "," (parameters.map lexemes) ++
        sign ")" :: annotatedLexemes (result.map fun r =>
          enclosed (r.isJoined || r.isArrow) r.lexemes)) := by
    cases result <;> simp [lexemes]
  have hreread : (TypeExpr.function parameters result false false).reread =
      .function (parameters.map reread)
        (result.map fun r => covered (r.isJoined || r.isArrow) r.reread) false false := by
    rw [reread, rereadAll_single]
    cases result <;> rfl
  refine readsBack_of_trail h rfl fun {m rest} hlength hrest => trail_of_primary ?_
  rw [hlexemes, length_cons, length_cons, length_append, length_cons] at hlength
  have hreads : ∀ p ∈ parameters, p.isOperand = true → ReadsType (level m) p := by
    intro p hp hp'
    have hle := length_le_parted "," hp
    have hlength' : p.lexemes.length ≤ m := by omega
    exact (hparameters p hp).readsType hp' hlength'
  have hreads' : ∀ p ∈ parameters, p.isOperand = false → ∀ e ∈ p.parts, ReadsType (level m) e := by
    intro p hp hp' e he
    have hreceiver := (hform p hp).resolve_left (by rw [hp']; exact Bool.false_ne_true)
    obtain ⟨hoperand, hle⟩ := isOperand_of_annotated (hparameters p hp).layerFormed
      (isType_of_isReceiver hreceiver) he
    have hle' := length_le_parted "," hp
    have hlength' : e.lexemes.length ≤ m := by omega
    exact (hparts p hp e he).readsType hoperand hlength'
  have hread := gives_functionType hform
    (fun p hp hp' => exists_starts (hparameters p hp).formed (hparameters p hp).grouped
      (isType_of_isOperand hp')) hreads hreads'
    (gives_result hresult hoperand (by omega) hrest)
  rw [hreread, hlexemes]
  have htext : word "function" :: sign "(" :: (parted "," (parameters.map lexemes) ++
      sign ")" :: annotatedLexemes (result.map fun r =>
        enclosed (r.isJoined || r.isArrow) r.lexemes)) ++ rest =
    word "function" :: sign "(" :: (parted "," (parameters.map lexemes) ++
      sign ")" :: (annotatedLexemes (result.map fun r =>
        enclosed (r.isJoined || r.isArrow) r.lexemes) ++ rest)) := by
    simp
  rw [htext]
  exact gives_current_bind fun _ => (gives_ahead? 1 "(").bind ((gives_ahead? 1 "(").bind hread)

/-- A sign that stands for itself. -/
theorem gives_terminated_bare (hrest : Halts (["|", "&"] ++ closers) rest) :
    Gives terminated (lexeme :: rest) true (lexeme :: rest) := by
  have hterminated := @gives_terminated (lexeme :: rest)
  rwa [TypeLexeme.peek_one, hrest.terminates (by decide)] at hterminated

/-- A sign that stands before an operand. -/
theorem gives_terminated_before {lexemes : List TypeLexeme}
    (h : canStart (TypeLexeme.peek lexemes 0) = true) :
    Gives terminated (lexeme :: lexemes) false (lexeme :: lexemes) := by
  have hterminated := @gives_terminated (lexeme :: lexemes)
  rwa [TypeLexeme.peek_one, terminators_of_canStart h] at hterminated

/-- An operator before an operand. -/
theorem ReadsBack.prefixed (he : ReadsBack e) (h : type.Legible) (htype : type.isPostfix = false)
    (hjoined : type.isJoined = false) (hoperand : e.isOperand = true)
    (hloose : loose = true ∨ e.isJoined = false) {mark : TypeLexeme}
    (hlexemes : type.lexemes = mark :: enclosed loose e.lexemes)
    (harrow : type.endsArrow = (!loose && e.endsArrow))
    (hstep : ∀ {m rest}, canStart (TypeLexeme.peek (enclosed loose e.lexemes ++ rest) 0) = true →
      Gives (level m .operand) (enclosed loose e.lexemes ++ rest)
        (TypeExpr.covered loose e.reread) rest →
      Gives (operand (level m)) (mark :: (enclosed loose e.lexemes ++ rest)) type.reread rest) :
    ReadsBack type := by
  refine readsBack_of_operand h (by rw [htype]; nofun) hjoined fun _ {m rest} hlength hrest => ?_
  rw [hlexemes, length_cons] at hlength
  rw [← endsArrow_covered] at harrow
  rw [signsAfter_congr harrow] at hrest
  rw [hlexemes, cons_append]
  refine hstep ?_ (he.below hoperand hloose (Nat.le_of_succ_le_succ hlength) hrest)
  cases loose with
  | true => rfl
  | false => exact he.canStart (isType_of_isOperand hoperand) rest

theorem isJoined_of_isLow : e.isLow = true ∨ e.isJoined = false := by
  cases e <;> first | exact .inl rfl | exact .inr rfl

theorem readsBack_unknown (h : TypeExpr.unknown.Legible) : ReadsBack .unknown :=
  readsBack_of_operand h nofun rfl fun _ {_ _} _ hrest =>
    gives_see rfl ((gives_terminated_bare (halts_of_signsAfter hrest)).bind (gives_skip gives_pure))

theorem readsBack_leading_nullable (h : (TypeExpr.nullable e true).Legible) (he : ReadsBack e) :
    ReadsBack (.nullable e true) :=
  he.prefixed h rfl rfl h.layerFormed isJoined_of_isLow rfl (by simp [endsArrow])
    fun hstart hread => gives_see rfl ((gives_terminated_before hstart).bind
      (gives_skip (hread.bind gives_pure)))

theorem readsBack_leading_notNullable (h : (TypeExpr.notNullable e true).Legible)
    (he : ReadsBack e) : ReadsBack (.notNullable e true) :=
  he.prefixed h rfl rfl h.layerFormed isJoined_of_isLow rfl (by simp [endsArrow])
    fun _ hread => gives_miss rfl (gives_take rfl (hread.bind gives_pure))

theorem readsBack_variadic {e? : Option TypeExpr} (h : (TypeExpr.variadic e?).Legible)
    (he : ∀ e ∈ e?, ReadsBack e) : ReadsBack (.variadic e?) := by
  cases e? with
  | none =>
    exact readsBack_of_operand h nofun rfl fun _ {_ _} _ hrest =>
      gives_miss rfl (gives_pass rfl (gives_see rfl
        ((gives_terminated_bare (halts_of_signsAfter hrest)).bind (gives_skip gives_pure))))
  | some e =>
    exact (he e rfl).prefixed h rfl rfl h.layerFormed isJoined_of_isLow rfl rfl
      fun hstart hread => gives_miss rfl (gives_pass rfl (gives_see rfl
        ((gives_terminated_before hstart).bind (gives_skip (hread.bind gives_pure)))))

theorem readsBack_keyof (h : (TypeExpr.keyof e).Legible) (he : ReadsBack e) :
    ReadsBack (.keyof e) := by
  have hloose : (e.isJoined || e.isArrow) = true ∨ e.isJoined = false := by
    cases e.isJoined
    · exact .inr rfl
    · exact .inl rfl
  refine he.prefixed h rfl rfl h.layerFormed hloose rfl rfl fun {m rest} _ hread => ?_
  refine gives_miss rfl (gives_pass rfl (gives_miss rfl ((gives_at? "typeof").bind ?_)))
  exact gives_peek_bind fun _ _ => gives_take rfl (hread.bind gives_pure)

theorem readsBack_typeof (h : (TypeExpr.typeof e).Legible) (he : ReadsBack e) :
    ReadsBack (.typeof e) := by
  have hword : e.isPostfix = true ∧ ∃ text more, e.lexemes = word text :: more := by
    have hgrouped := h.layerGrouped
    simp only [layerGrouped, Bool.or_eq_true, Option.isSome_iff_exists] at hgrouped
    rcases hgrouped with ⟨text, hopening⟩ | hconstructor
    · exact ⟨isPostfix_of_opening hopening, text, exists_word_of_opening hopening⟩
    · cases e with
      | function parameters result arrow constructs =>
        obtain ⟨rfl, rfl⟩ := Bool.and_eq_true_iff.1 hconstructor
        exact ⟨rfl, "new", _, rfl⟩
      | _ => cases hconstructor
  obtain ⟨hpost, text, more, hlexemes⟩ := hword
  refine readsBack_of_operand h (by rintro ⟨⟩) rfl fun _ {m rest} hlength hrest => ?_
  have hlength' : e.lexemes.length ≤ m + 1 := Nat.le_of_succ_le hlength
  have hrest' : Halts (signsAfter e ["|", "&"]) rest := by
    rwa [signsAfter_congr (by rfl : e.typeof.endsArrow = e.endsArrow)] at hrest
  have hread := (he.asTrail hpost hlength' (trails_of_halts hrest')).postfixed
    (halts_of_signsAfter hrest')
  refine gives_miss rfl (gives_pass rfl (gives_miss rfl ((gives_at? "typeof").bind ?_)))
  refine gives_peek_bind fun token htoken => gives_then ?_ (gives_skip (hread.bind gives_pure))
  have hkind : token.kind = .name := by
    rw [← TypeToken.kind_lexeme, htoken, lexemes, hlexemes]
    rfl
  rw [hkind]
  rfl

/-- Types with an operator between them, all of which make up one chain. -/
theorem chain_parted {last : TypeExpr}
    (htypes : ∀ e ∈ types, ∀ later, Chain item mark (e.lexemes ++ sign mark :: later)
      (split e.reread) (sign mark :: later))
    (hlast : Chain item mark (last.lexemes ++ rest) (split last.reread) rest) :
    Chain item mark (parted mark ((types ++ [last]).map lexemes) ++ rest)
      ((types ++ [last]).flatMap fun e => split e.reread) rest := by
  induction types with
  | nil => simpa [parted] using hlast
  | cons first types ih =>
    obtain ⟨hfirst, htypes⟩ := forall_mem_cons.1 htypes
    have htext : parted mark ((first :: types ++ [last]).map lexemes) ++ rest =
        first.lexemes ++ sign mark ::
          (parted mark ((types ++ [last]).map lexemes) ++ rest) := by
      cases types <;> simp [parted, intercalate_cons_cons]
    rw [htext, cons_append, flatMap_cons]
    exact (hfirst _).append (ih htypes)

theorem exists_last (h : 2 ≤ elements.length) :
    ∃ types last, elements = types ++ [last] := by
  refine ⟨_, _, (dropLast_append_getLast ?_).symm⟩
  rintro rfl
  cases h

/-- The types that an operator joins. All but the last end before the operator. -/
theorem chain_joined {marks : List String} (hmark : mark ∈ marks) {loose : TypeExpr → Bool}
    (hsplit : ∀ e, split (.parenthesis e) = [.parenthesis e]) {last : TypeExpr}
    (helements : ∀ e ∈ types ++ [last], ∀ rest,
      Halts (signsAfter (covered (loose e) e) marks) rest →
      Chain item mark ((covered (loose e) e).lexemes ++ rest)
        (split (covered (loose e) e).reread) rest)
    (hends : ∀ e ∈ types, loose e = true ∨ e.endsArrow = false)
    (hrest : Halts (signsAfter (covered (loose last) last) marks) rest) :
    Chain item mark (parted mark (lexemesGrouped loose (types ++ [last])) ++ rest)
      (rereadAll loose split (types ++ [last])) rest := by
  let cover (e : TypeExpr) : TypeExpr := covered (loose e) e
  have hlexemes : lexemesGrouped loose (types ++ [last]) =
      (types.map cover ++ [cover last]).map lexemes := by
    simp [cover]
  have hreread : rereadAll loose split (types ++ [last]) =
      (types.map cover ++ [cover last]).flatMap fun e => split e.reread := by
    rw [rereadAll_eq_flatMap, ← map_singleton, ← map_append, flatMap_map]
    refine flatMap_congr fun e _ => ?_
    cases hloose : loose e with
    | true => simp [cover, hloose, hsplit, covered, reread]
    | false => simp [cover, hloose, covered]
  rw [hlexemes, hreread]
  refine chain_parted (fun e hmem later => ?_)
    (helements last (mem_append_right _ (.head _)) rest hrest)
  obtain ⟨e, he, rfl⟩ := mem_map.1 hmem
  refine helements e (mem_append_left _ he) _ ?_
  have hopen : (cover e).endsArrow = false := by
    rw [endsArrow_covered]
    rcases hends e he with hloose | hends <;> simp [*]
  rw [signsAfter, if_neg (by rw [hopen]; exact Bool.false_ne_true)]
  exact halts_sign (mem_append_left _ hmark)

theorem readsBack_union (h : (TypeExpr.union elements).Legible)
    (helements : ∀ e ∈ elements, ReadsBack e) : ReadsBack (.union elements) := by
  have hlayer := h.layerFormed
  have hlayer' := h.layerGrouped
  simp only [layerFormed, Bool.and_eq_true, decide_eq_true_eq, all_eq_true] at hlayer
  obtain ⟨types, last, rfl⟩ := exists_last hlayer.1
  simp only [layerGrouped, dropLast_concat, all_eq_true, Bool.or_eq_true,
    Bool.not_eq_true'] at hlayer'
  refine
    { h with
      asTrail := by rintro ⟨⟩
      asOperand := by rintro _ ⟨⟩
      asConjuncts := by rintro _ ⟨⟩
      asAlternatives := ?_ }
  intro _ m rest hlength hrest
  have harrow : (TypeExpr.union (types ++ [last])).endsArrow =
      (covered last.isArrow last).endsArrow := by
    rw [endsArrow, endsArrowLast_append, endsArrow_covered]
  rw [signsAfter_congr harrow] at hrest
  refine chain_joined (by decide) (fun _ => rfl) (fun e he rest hrest => ?_) hlayer' hrest
  refine ((helements e he).covered fun _ => hlayer.2 e he).asAlternatives
    (isOperand_covered (hlayer.2 e he)) ?_ hrest
  exact Nat.le_trans (length_le_grouped "|" _ he) hlength

theorem readsBack_intersection (h : (TypeExpr.intersection elements).Legible)
    (helements : ∀ e ∈ elements, ReadsBack e) : ReadsBack (.intersection elements) := by
  have hlayer := h.layerFormed
  have hlayer' := h.layerGrouped
  simp only [layerFormed, Bool.and_eq_true, decide_eq_true_eq, all_eq_true] at hlayer
  obtain ⟨types, last, rfl⟩ := exists_last hlayer.1
  have hends : ∀ e ∈ types, (e.isUnion || e.isArrow) = true ∨ e.endsArrow = false := by
    simpa [layerGrouped] using hlayer'
  have harrow : (TypeExpr.intersection (types ++ [last])).endsArrow =
      (covered (last.isUnion || last.isArrow) last).endsArrow := by
    rw [endsArrow, endsArrowLast_append, endsArrow_covered]
  have hconjuncts : ∀ {m rest},
      (TypeExpr.intersection (types ++ [last])).lexemes.length ≤ m + 1 →
      Halts (signsAfter (TypeExpr.intersection (types ++ [last])) ["|", "&"]) rest →
      Chain (operand (level m)) "&" ((TypeExpr.intersection (types ++ [last])).lexemes ++ rest)
        (TypeExpr.intersection (types ++ [last])).reread.conjuncts rest := by
    intro m rest hlength hrest
    rw [signsAfter_congr harrow] at hrest
    refine chain_joined (by decide) (fun _ => rfl) (fun e he rest hrest => ?_) hends hrest
    have hunion : (covered (e.isUnion || e.isArrow) e).isUnion = false := by
      cases hunion : e.isUnion with
      | true => rfl
      | false =>
        cases e.isArrow with
        | true => rfl
        | false => exact hunion
    refine ((helements e he).covered fun _ => hlayer.2 e he).asConjuncts
      (isOperand_covered (hlayer.2 e he)) hunion ?_ hrest
    exact Nat.le_trans (length_le_grouped "&" (fun e => e.isUnion || e.isArrow) he) hlength
  exact
    { h with
      asTrail := by rintro ⟨⟩
      asOperand := by rintro _ ⟨⟩
      asConjuncts := fun _ _ => hconjuncts
      asAlternatives := fun _ _ _ hlength hrest => chain_of_conjuncts h.formed rfl hrest
        (hconjuncts hlength (hrest.mono (signsAfter_subset (by decide)))) }

/-- Every type whose text says what it is, and every part of it, is read back. -/
theorem readsBack_parts (h : type.Legible) : ReadsBack type ∧ ∀ e ∈ type.parts, ReadsBack e := by
  induction type using byParts with
  | step type ih =>
    have hparts : ∀ e ∈ type.parts, ReadsBack e := fun e he => (ih e he (h.part e he)).1
    have hparts' : ∀ p ∈ type.parts, ∀ e ∈ p.parts, ReadsBack e :=
      fun p hp => (ih p hp (h.part p hp)).2
    refine ⟨?_, hparts⟩
    clear ih
    cases type with
    | name => exact readsBack_name h
    | any => exact readsBack_of_trail h rfl fun _ _ => trail_of_primary gives_any
    | unknown => exact readsBack_unknown h
    | string text quote =>
      exact readsBack_of_trail h rfl fun _ _ => trail_of_primary (gives_string text quote)
    | number text => exact readsBack_of_trail h rfl fun _ _ => trail_of_primary (gives_number text)
    | union => exact readsBack_union h hparts
    | intersection => exact readsBack_intersection h hparts
    | generic head arguments =>
      exact readsBack_generic h (hparts head (.head _)) fun e he => hparts e (.tail _ he)
    | array e => exact readsBack_array h (hparts e (.head _))
    | field | parameter =>
      exact { h with
        asTrail := nofun, asOperand := nofun, asConjuncts := nofun, asAlternatives := nofun }
    | object => exact readsBack_object h hparts'
    | tuple => exact readsBack_tuple h hparts
    | function parameters result arrow constructs =>
      have hparameters : ∀ p ∈ parameters, ReadsBack p :=
        fun p hp => hparts p (mem_append_left _ hp)
      have hresult : ∀ e ∈ result, ReadsBack e :=
        fun e he => hparts e (mem_append_right _ (Option.mem_toList.2 he))
      have htypes : ∀ p ∈ parameters, ∀ e ∈ p.parts, ReadsBack e :=
        fun p hp => hparts' p (mem_append_left _ hp)
      cases arrow with
      | true => exact readsBack_arrow h hresult htypes
      | false => exact readsBack_function h hparameters hresult htypes
    | parenthesis e => exact (hparts e (.head _)).parenthesis h.layerFormed
    | nullable e leading =>
      cases leading with
      | true => exact readsBack_leading_nullable h (hparts e (.head _))
      | false => exact readsBack_nullable h (hparts e (.head _))
    | notNullable e leading =>
      cases leading with
      | true => exact readsBack_leading_notNullable h (hparts e (.head _))
      | false => exact readsBack_notNullable h (hparts e (.head _))
    | optional e => exact readsBack_optional h (hparts e (.head _))
    | variadic e? => exact readsBack_variadic h fun e he => hparts e (Option.mem_toList.2 he)
    | typeof e => exact readsBack_typeof h (hparts e (.head _))
    | keyof e => exact readsBack_keyof h (hparts e (.head _))

end

end TypeReader

namespace TypeExpr

/-- The tokens of a legible type, with enough levels, are read back. -/
theorem Legible.gives_root {type : TypeExpr} (h : type.Legible) (hoperand : type.isOperand = true)
    {levels : Nat} (hlevels : type.lexemes.length ≤ levels) :
    TypeReader.Gives (TypeReader.root (levels + 1)) type.lexemes type.reread [] := by
  have hstart : (TypeLexeme.peek type.lexemes 0).kind ≠ .endOfInput := by
    have hstart := h.canStart (isType_of_isOperand hoperand) []
    rw [append_nil] at hstart
    intro hkind
    rw [TypeReader.canStart, hkind] at hstart
    cases hstart
  have hread :
      TypeReader.Gives (TypeReader.level (levels + 1) .type) type.lexemes type.reread [] := by
    have hhalts : TypeReader.Halts TypeReader.closers [] := by rintro _ ⟨⟩
    have hread :=
      (TypeReader.readsBack_parts h).1.readsType hoperand (Nat.le_succ_of_le hlevels) hhalts
    rwa [append_nil] at hread
  refine TypeReader.gives_peek_bind fun token htoken => TypeReader.gives_else ?_ (hread.bind ?_)
  · rw [← htoken] at hstart
    exact beq_eq_false_iff_ne.2 hstart
  · refine TypeReader.gives_peek_bind fun token htoken =>
      TypeReader.gives_else ?_ TypeReader.gives_pure
    rw [← TypeToken.kind_lexeme, htoken]
    rfl

/-- A legible type is read back from its text. -/
theorem Legible.read_print {type : TypeExpr} (h : type.Legible) (hoperand : type.isOperand = true)
    (line : Nat) : read type.print.toList line = .ok type.reread := by
  have hlexes : TypeToken.Lexes type.print.toList type.lexemes := by
    have := spells_print h.formed h.grouped [] [] .nil (fun _ _ _ hc => nomatch hc)
    rwa [append_nil, append_nil] at this
  obtain ⟨tokens, hlex, hlexemes⟩ := hlexes.exists_lexFrom _ 0 (Nat.le_refl _)
  have hlength : type.lexemes.length ≤ tokens.length :=
    Nat.le_of_eq (by rw [← hlexemes, length_map])
  obtain ⟨cursor, -, hrun⟩ := h.gives_root hoperand hlength
    ⟨tokens, ⟨.endOfInput, "", type.print.toList.length⟩⟩ ⟨hlexemes, rfl⟩
  have hlex' : TypeToken.lex type.print.toList = .ok tokens := by rw [TypeToken.lex, hlex]
  have hrun' : (TypeReader.root (tokens.length + 1) : TypeReader TypeExpr).run'
      ⟨tokens, ⟨.endOfInput, "", type.print.toList.length⟩⟩ = .ok type.reread := by
    rw [StateT.run'_eq, hrun]
    rfl
  simp only [read, hlex', hrun', bind, Except.bind]
  rfl

end TypeExpr

end DocTypes
