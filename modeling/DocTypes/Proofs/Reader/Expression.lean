import DocTypes.Proofs.Reader.Function

/-!
# Where expressions stand

What the readers of expressions ensure. An expression that goes on, as a member access or a binary
operation does, is closed at the start of its first part, so these readers are followed from the
place at which they started (`Reads` from `before`). The parts of a template are read one after the
other but kept in two lists; `ensures_template` is the one place where the order is lost.
-/

namespace DocTypes.TreeReader

open List

section
variable {lexed : Lexed} {before cursor : Cursor}
  {recur : Goal → TreeReader Node}

/-- The property after a point is read. -/
theorem ensures_namedProperty (h : cursor.Sound lexed) :
    Ensures namedProperty cursor (Reads lexed cursor) := by
  refine ensures_current_bind.2 ?_
  split
  case h_1 hkind =>
    refine (ensures_skip h (by rw [hkind]; nofun)).bind fun _ _ htook => ?_
    exact htook.identifier
  case h_2 hkind =>
    refine (ensures_skip h (by rw [hkind]; nofun)).bind fun _ _ htook => ?_
    exact htook.privateIdentifier
  case h_3 => exact ensures_fail h

/-- A stretch of template text is longer than the signs at its end. -/
theorem templateMarks_lt {text : List Char} (h : 2 ≤ text.length) :
    0 < (if !(['{', '$'].isPrefixOf (text.drop 1).reverse) then 1 else 2) ∧
      (if !(['{', '$'].isPrefixOf (text.drop 1).reverse) then 1 else 2) + 1 ≤ text.length := by
  split
  case isTrue => exact ⟨Nat.one_pos, h⟩
  case isFalse hopen =>
    have hopen' : ['{', '$'] <+: (text.drop 1).reverse :=
      isPrefixOf_iff_prefix.1 (by simpa using hopen)
    have hlength := hopen'.length_le
    rw [length_reverse, length_drop] at hlength
    simp only [length_cons, length_nil] at hlength
    omega

/-- The text of a template lies inside its token. -/
theorem ensures_templateElement {token : Token} (htook : Took lexed before token cursor)
    (hkind : token.kind = .template) :
    Ensures (templateElement token) cursor fun element cursor' =>
      Since lexed before [.node element.1] cursor' := by
  obtain ⟨⟨hto, hlt⟩, hmem, hstart, hstop⟩ := htook
  have hsolid := hto.sound.ordered.solid token hmem
  have hlength := hsolid.length
  have hmarks := templateMarks_lt (hsolid.template hkind)
  rw [templateElement]
  refine ensures_make.bind ?_
  rintro _ _ ⟨rfl, rfl⟩
  generalize (if !(['{', '$'].isPrefixOf (token.text.toList.drop 1).reverse) then 1 else 2) = marks
    at hmarks ⊢
  refine ensures_pure ⟨hto, hlt, Fits.row ⟨?_, _, rfl, ?_⟩⟩
  · refine .intro rfl ⟨token, hmem, hkind, ?_⟩ ⟨nofun, nofun⟩ nofun (inTurn_nil _)
    simp only
    omega
  · simp only
    omega

/-- A row of template parts, texts and expressions in turn, in the order in which a template keeps
them. -/
theorem perm_templateParts (parts : List (Node × Option Node)) :
    ((parts.map (·.1)).map Value.node ++ (parts.filterMap (·.2)).map Value.node).Perm
      (parts.flatMap fun part => .node part.1 :: part.2.toList.map Value.node) := by
  induction parts with
  | nil => exact .nil
  | cons part rest ih =>
    obtain ⟨text, _ | expression⟩ := part
    · exact ih.cons _
    · refine List.Perm.cons _ ?_
      exact perm_middle.trans (ih.cons _)

/-- A row in another order is arranged in a template. -/
theorem arranged_template {tokens : List Token} {low high : Nat} {values values' : List Value}
    (h : Row tokens low values high) (hperm : values'.Perm values) :
    Arranged ⟨low, high⟩ values' := by
  have hspans := (hperm.filterMap Value.node?).filterMap Node.span
  exact ⟨fun value hmem => h.arranged.nodes value (hperm.mem_iff.1 hmem),
    fun inner hmem => h.arranged.inside inner (hspans.mem_iff.1 hmem)⟩

/-- Nodes in a row are apart in whatever order a template keeps them. -/
theorem inTurn_template {tokens : List Token} {low high : Nat} {values values' : List Value}
    (h : Row tokens low values high) (hperm : values'.Perm values) :
    InTurn .templateLiteral (spansOf values') := by
  have hspans : (spansOf values').Perm (spansOf values) :=
    (hperm.filterMap Value.node?).filterMap Node.span
  rw [InTurn, if_pos rfl]
  exact (hspans.pairwise_iff Or.symm).2 (h.pairwise.imp .inl)

/-- A property of a word of the language is read from its point on. -/
theorem ensures_metaProperty {word : Token} {after : Cursor} (h : before.Sound lexed)
    (hword : Took lexed before word after)
    (hto : after.To lexed cursor) :
    Ensures (metaProperty word) cursor (Reads lexed before) := by
  refine (ensures_expectName hto.sound).bind fun property c1 h1 => ?_
  refine (hword.identifier_later (hto.trans h1.1.1)).bind fun word' c2 h2 => ?_
  refine (h1.identifier_later h2.1).bind fun property' c3 h3 => ?_
  have hlast := h2.1.trans h3.1
  have hto3 := (hword.1.1.trans (hto.trans h1.1.1)).trans hlast
  have hlt := Nat.lt_of_lt_of_le hword.1.2 ((hto.trans h1.1.1).trans hlast).last_le
  have hrow : Row lexed.tokens before.front [.node word', .node property'] c3.lastEnd := by
    refine .cons h2.2.2 ((h3.2.2.mono ?_ hlast.last_le).row)
    exact Nat.le_trans hto.last_le hto.gap
  rw [hword.2.2.1]
  exact Since.finish ⟨hto3, hlt, hrow⟩ h rfl rfl

/-- What a step that goes on from an expression ensures: it takes a token, and the whole is read
from where the expression started. -/
def Extends (lexed : Lexed) (before cursor : Cursor) (node : Node) (cursor' : Cursor) : Prop :=
  Moves lexed cursor cursor' ∧ Reads lexed before node cursor'

/-- A member access is closed over its parts. -/
theorem ensures_finishMember {first : Cursor} {object property : Node} {computed optional : Bool}
    (h : before.Sound lexed) (hmoves : Moves lexed first cursor)
    (hparts : Since lexed before [.node object, .node property] cursor) :
    Ensures (finishMember before.front object property computed optional) cursor
      (Extends lexed before first) :=
  hparts.finish_moves h hmoves rfl rfl

/-- A call is closed over its parts. -/
theorem ensures_finishCall {first : Cursor} {callee : Node} {arguments : List Node}
    {optional : Bool} (h : before.Sound lexed) (hmoves : Moves lexed first cursor)
    (hparts : Since lexed before (.node callee :: arguments.map .node) cursor) :
    Ensures (finishCall before.front callee arguments optional) cursor
      (Extends lexed before first) :=
  hparts.finish_moves h hmoves rfl (congrArg (_ :: ·) (append_nil _))

/-- Looking for a binary operator moves nothing. -/
theorem ensures_binaryOperator? :
    Ensures binaryOperator? cursor fun _ cursor' => cursor' = cursor :=
  ensures_current_bind.2 (ensures_get_bind.2 (ensures_pure rfl))

/-- Looking for an arrow function moves nothing. -/
theorem ensures_arrowAhead? : Ensures arrowAhead? cursor fun _ cursor' => cursor' = cursor := by
  refine ensures_current_bind.2 (ensures_peek_bind.2 (ensures_get_bind.2 ?_))
  refine ensures_ite (fun _ => ?_) fun _ => ?_
  · refine ensures_ite (fun _ => ensures_pure rfl) fun _ => ?_
    refine ensures_ite (fun _ => ensures_peek_bind.2 ?_) fun _ => ensures_pure rfl
    refine ensures_ite (fun _ => ensures_pure rfl) fun _ => ?_
    exact ensures_ite (fun _ => ensures_pure rfl) fun _ => ensures_pure rfl
  · exact ensures_ite (fun _ => ensures_pure rfl) fun _ => ensures_pure rfl

/-- An expression that may be spread is read. -/
theorem ensures_spreadable (hr : RecursHere lexed cursor recur) :
    Ensures (spreadable recur) cursor (Reads lexed cursor) := by
  have h := hr.recurs.sound
  refine ensures_start_bind.2 ?_
  refine (ensures_eat h "...").bind fun _ c1 h1 => ensures_ite (fun _ => ?_) fun _ => ?_
  · refine (hr.reads h1.1).bind fun argument c2 h2 => ?_
    exact (h2.since h1.1).finish h rfl rfl
  · exact (hr.reads h1.1).imp fun _ _ h2 => h2.around h1.1 h2.1.sound.to

variable (hr : Recurs lexed cursor recur)
include hr

/-- An expression in parentheses is read. -/
theorem ensures_parenthesized : Ensures (parenthesized recur) cursor (Reads lexed cursor) := by
  refine (ensures_expect hr.sound "(").bind fun _ c1 h1 => ?_
  refine (ensures_allowingIn h1.1.sound fun _ hto => hr.reads (h1.to hto)).bind
    fun expression c2 h2 => ?_
  refine (ensures_expect h2.1.sound ")").bind fun _ c3 h3 => ?_
  exact ensures_pure (h2.around h1.1 h3.1)

/-- A property in square brackets is read. -/
theorem ensures_computedProperty :
    Ensures (computedProperty recur) cursor (Reads lexed cursor) := by
  refine (ensures_expect hr.sound "[").bind fun _ c1 h1 => ?_
  refine (ensures_allowingIn h1.1.sound fun _ hto => hr.reads (h1.to hto)).bind
    fun property c2 h2 => ?_
  refine (ensures_expect h2.1.sound "]").bind fun _ c3 h3 => ?_
  exact ensures_pure (h2.around h1.1 h3.1)

/-- Arguments are read in a row. -/
theorem ensures_arguments : Ensures (arguments recur) cursor fun items cursor' =>
    Since lexed cursor (items.map .node) cursor' := by
  refine (ensures_expect hr.sound "(").bind fun _ c1 h1 => ?_
  refine h1.since.readAll (ensures_within (fun _ => ensures_many_nodes ?_ (by exact h1.1.sound))
    fun _ _ _ hpost => hpost) fun items c2 s2 => ?_
  · intro c2 h2
    exact ensures_item h2.1 (ensures_spreadable (hr.here (h1.to h2)))
  · refine (ensures_expect s2.sound ")").bind fun _ c3 h3 => ensures_pure ?_
    exact s2.to h3.1

/-- A template is read. -/
theorem ensures_template : Ensures (template recur) cursor (Reads lexed cursor) := by
  refine ensures_start_bind.2 ?_
  refine Ensures.bind (ensures_within_since hr.sound fun c hc => ensures_many_since
    (fun part : Node × Option Node => .node part.1 :: part.2.toList.map .node) ?_ hc.1) ?_
  · intro c1 h1
    refine ensures_current_bind.2 (ensures_guard h1.1 fun hkind => ?_)
    have htemplate : c1.next.kind = .template := by simpa using hkind
    refine (ensures_skip h1.1 (by rw [htemplate]; nofun)).bind fun _ c2 h2 => ?_
    refine (ensures_templateElement h2 htemplate).bind fun element c3 s3 => ?_
    refine ensures_ite (fun _ => ensures_pure ⟨_, _, rfl, s3⟩) fun _ => ?_
    refine s3.read (hr.reads (s3.moves.after (hc.trans h1))) fun expression c4 s4 => ?_
    refine ensures_current_bind.2 (ensures_guard s4.sound fun _ => ensures_pure ?_)
    exact ⟨_, _, rfl, s4⟩
  · rintro parts c1 ⟨hto, hlt, hrow⟩
    have hvalues : fieldValues .templateLiteral [(.quasis, nodes (parts.map (·.1))),
        (.expressions, nodes (parts.filterMap (·.2)))] =
        (parts.map (·.1)).map Value.node ++ (parts.filterMap (·.2)).map Value.node :=
      congrArg (_ ++ ·) (append_nil _)
    have hperm := perm_templateParts parts
    refine ensures_finish (hr.sound.starts hto hlt) hto rfl hlt ?_ ?_ ?_
    · rw [hvalues]
      exact arranged_template hrow hperm
    · rw [hvalues]
      exact fun child hchild => hrow.placed child ((hperm.filterMap _).mem_iff.1 hchild)
    · rw [hvalues]
      exact inTurn_template hrow hperm

/-- An array is read, with its elements in a row. -/
theorem ensures_array : Ensures (array recur) cursor (Reads lexed cursor) := by
  refine ensures_start_bind.2 ?_
  refine (ensures_expect hr.sound "[").bind fun _ c1 h1 => ?_
  refine h1.since.readAll (ensures_within (fun _ => ensures_many (fun value => [value]) ?_
    (by exact h1.1.sound)) fun _ _ _ hpost => hpost) ?_
  · intro c2 h2
    exact ensures_element h2.1 fun c3 h3 => ensures_spreadable (hr.here (h1.to (h2.trans h3)))
  · intro elements c2 s2
    refine s2.expect "]" fun c3 s3 => ?_
    refine s3.finish hr.sound rfl ?_
    simp [fieldValues, Kind.childFields, Value.flat, flatMap_singleton']

omit hr in
/-- A property whose key stands for itself is read from its key on. -/
theorem ensures_shorthandProperty {key : Node} {computed : Bool} (hr : Recurs lexed before recur)
    (hkey : Reads lexed before key cursor) :
    Ensures (shorthandProperty recur before.front key computed) cursor
      (Reads lexed before) := by
  rw [shorthandProperty]
  refine ensures_guard hkey.1.sound fun _ => ?_
  refine (ensures_shorthandValue (hr.to hkey.1) hkey).bind fun value c1 h1 => ?_
  exact ensures_finish_twins hr.sound hkey h1.1 h1.2 rfl nofun rfl

omit hr in
/-- A member of an object is read. -/
theorem ensures_objectMember (hr : RecursHere lexed cursor recur) :
    Ensures (objectMember recur) cursor (Reads lexed cursor) := by
  have h := hr.recurs.sound
  refine ensures_start_bind.2 ?_
  refine ensures_isAt_bind.2 (ensures_ite (fun _ => ensures_spreadable hr) fun _ => ?_)
  refine (ensures_keyModifiers h).bind fun modifiers c1 h1 => ?_
  refine (ensures_propertyKey (hr.recurs.to h1)).bind fun key c2 h2 => ?_
  have s2 := h2.since h1
  refine ensures_isAt_bind.2 (ensures_ite (fun _ => ?_) fun _ => ?_)
  · refine s2.read (ensures_methodValue (hr.recurs.to s2.1)) fun value c3 s3 => ?_
    exact s3.finish h rfl rfl
  · refine (ensures_eat s2.sound ":").bind fun _ c3 h3 => ensures_ite (fun _ => ?_) fun _ => ?_
    · refine (s2.to h3.1).read (hr.reads (s2.to h3.1).1) fun value c4 s4 => ?_
      exact s4.finish h rfl rfl
    · exact ensures_shorthandProperty hr.recurs (h2.around h1 h3.1)

/-- An object is read, with its members in a row. -/
theorem ensures_object : Ensures (object recur) cursor (Reads lexed cursor) := by
  refine ensures_start_bind.2 ?_
  refine (ensures_expect hr.sound _).bind fun _ c1 h1 => ?_
  refine h1.since.readAll (ensures_within (fun _ => ensures_many_nodes ?_ (by exact h1.1.sound))
    fun _ _ _ hpost => hpost) ?_
  · intro c2 h2
    exact ensures_item h2.1 (ensures_objectMember (hr.here (h1.to h2)))
  · intro properties c2 s2
    refine s2.expect _ fun c3 s3 => ?_
    exact s3.finish hr.sound rfl (append_nil _)

/-- The word `import` is read with what follows it. -/
theorem ensures_importForm (hkind : cursor.next.kind ≠ .endOfInput) :
    Ensures (importForm recur) cursor (Reads lexed cursor) := by
  have h := hr.sound
  refine (ensures_advance h hkind).bind fun word c1 h1 => ?_
  refine (ensures_eat h1.1.1.1.sound ".").bind fun _ c2 h2 => ?_
  refine ensures_ite (fun _ => ensures_metaProperty h h1.1 h2.1) fun _ => ?_
  have hto := h1.1.1.1.trans h2.1
  refine (ensures_arguments (hr.to hto)).bind fun arguments c3 s3 => ?_
  split
  case h_1 => exact ensures_fail s3.sound
  case h_2 first rest =>
    have hrow : Row lexed.tokens cursor.front [.node first] c3.lastEnd := by
      cases s3.2.2 with
      | cons fits row => exact (fits.mono hto.front_le row.le).row
    rw [h1.1.2.2.1]
    exact Since.finish ⟨hto.trans s3.1, Nat.lt_of_le_of_lt hto.front_le s3.2.1, hrow⟩ h rfl rfl

/-- An expression that starts with a word is read. -/
theorem ensures_wordPrimary (hkind : cursor.next.kind ≠ .endOfInput) :
    Ensures (wordPrimary recur cursor.next) cursor (Reads lexed cursor) := by
  have hleaf : ∀ {kind : Kind} {fields : List (Field × Value)}, kind.childFields = [] →
      kind.isForm = true → Ensures (skip >>= fun _ => make kind cursor.next.span fields) cursor
        (Reads lexed cursor) := fun hfields hkind' =>
    (ensures_skip hr.sound hkind).bind fun _ _ htook => htook.leaf hfields hkind'
  rw [wordPrimary]
  split
  case h_1 => exact ensures_function hr
  case h_2 => exact ensures_classDefinition hr
  case h_8 => exact ensures_importForm hr hkind
  case h_9 =>
    refine ensures_bind_of_eq rfl |>.2 ?_
    refine ensures_ite (fun _ => ensures_function hr) fun _ => ?_
    exact ensures_ite (fun _ => ensures_fail hr.sound) fun _ => hleaf rfl rfl
  all_goals exact hleaf rfl rfl

/-- An expression that no operator is applied to is read. -/
theorem ensures_primary : Ensures (primary recur) cursor (Reads lexed cursor) := by
  refine ensures_current_bind.2 ?_
  have hskip := ensures_skip hr.sound
  cases hkind : cursor.next.kind with
  | name => exact ensures_wordPrimary hr (by rw [hkind]; nofun)
  | number => exact (hskip (by rw [hkind]; nofun)).bind fun _ _ htook => htook.numberLiteral
  | string => exact (hskip (by rw [hkind]; nofun)).bind fun _ _ htook => htook.stringLiteral
  | regex => exact (hskip (by rw [hkind]; nofun)).bind fun _ _ htook => htook.leaf rfl rfl
  | privateName =>
    exact (hskip (by rw [hkind]; nofun)).bind fun _ _ htook => htook.privateIdentifier
  | endOfInput => exact ensures_fail hr.sound
  | template => exact ensures_ite (fun _ => ensures_template hr) fun _ => ensures_fail hr.sound
  | punctuator =>
    dsimp only
    split
    case h_1 => exact ensures_parenthesized hr
    case h_2 => exact ensures_array hr
    case h_3 => exact ensures_object hr
    case h_4 => exact ensures_fail hr.sound

omit hr in
/-- A step after `?.` is read. -/
theorem ensures_optionalStep {first : Cursor} {base : Node} (hr : Recurs lexed before recur)
    (hfirst : first.To lexed cursor) (hbase : Since lexed before [.node base] cursor) :
    Ensures (optionalStep recur before.front base) cursor (Extends lexed before first) := by
  have hs := hbase.sound
  refine ensures_isAt_bind.2 (ensures_ite (fun _ => ?_) fun _ => ?_)
  · refine (ensures_arguments (hr.to hbase.1)).bind fun arguments c1 h1 => ?_
    exact ensures_finishCall hr.sound (h1.moves.after hfirst) (hbase.append h1)
  · refine ensures_isAt_bind.2 (ensures_ite (fun _ => ?_) fun _ => ?_)
    · refine (ensures_computedProperty (hr.to hbase.1)).bind fun property c1 h1 => ?_
      exact ensures_finishMember hr.sound (h1.moves.after hfirst) (hbase.step (h1.spread hs))
    · refine (ensures_namedProperty hs).bind fun property c1 h1 => ?_
      exact ensures_finishMember hr.sound (h1.moves.after hfirst) (hbase.step (h1.spread hs))

omit hr in
/-- A step after an expression is read, around what came before it. -/
theorem ensures_tailStep {callable chained : Bool} {base : Node} (hr : Recurs lexed before recur)
    (hbase : Reads lexed before base cursor) :
    Ensures (tailStep recur callable before.front (base, chained)) cursor
      (Stepped lexed (fun value => Reads lexed before value.1) (base, chained) cursor) := by
  have h := hr.sound
  refine (ensures_eat hbase.1.sound ".").bind fun _ c1 h1 => ?_
  have hs := h1.1.sound
  have hbase1 := hbase.around h.to h1.1
  have s1 := hbase1.since h.to
  have hr1 := hr.to s1.1
  refine ensures_ite (fun _ => ?_) fun _ => ?_
  · refine (ensures_namedProperty hs).bind fun property c2 h2 => ?_
    refine (ensures_finishMember h (h2.moves.after h1.1) (s1.step (h2.spread hs))).bind ?_
    exact fun _ _ h3 => ensures_pure h3
  refine ensures_isAt_bind.2 (ensures_ite (fun _ => ?_) fun _ => ?_)
  · refine (ensures_skip_any hs).bind fun _ c2 h2 => ?_
    refine (ensures_optionalStep hr (h1.1.trans h2) (s1.to h2)).bind fun _ _ h3 => ?_
    exact ensures_pure h3
  refine ensures_isAt_bind.2 (ensures_ite (fun _ => ?_) fun _ => ?_)
  · refine (ensures_computedProperty hr1).bind fun property c2 h2 => ?_
    refine (ensures_finishMember h (h2.moves.after h1.1) (s1.step (h2.spread hs))).bind ?_
    exact fun _ _ h3 => ensures_pure h3
  refine ensures_isAt_bind.2 (ensures_ite (fun _ => ?_) fun _ => ?_)
  · refine (ensures_arguments hr1).bind fun arguments c2 h2 => ?_
    refine (ensures_finishCall h (h2.moves.after h1.1) (s1.append h2)).bind ?_
    exact fun _ _ h3 => ensures_pure h3
  refine ensures_current_bind.2 (ensures_ite (fun _ => ?_) fun _ => ensures_pure hbase1)
  refine (ensures_template hr1).bind fun quasi c2 h2 => ?_
  refine Ensures.bind ((s1.step (h2.spread hs)).finish_moves h (h2.moves.after h1.1) rfl rfl) ?_
  exact fun _ _ h3 => ensures_pure h3

omit hr in
/-- An expression is read with what follows it. -/
theorem ensures_tail {callable : Bool} {base : Node} (hr : Recurs lexed before recur)
    (hbase : Reads lexed before base cursor) :
    Ensures (tail recur callable before.front base) cursor (Reads lexed before) := by
  have hsteps : Ensures (stepping (tailStep recur callable before.front) (base, false)) cursor
      fun value => Reads lexed before value.1 :=
    ensures_stepping _ (fun h => h.1.sound) (fun h => ensures_tailStep hr h) hbase
  refine hsteps.bind fun result c1 h1 => ?_
  refine ensures_ite (fun _ => ?_) fun _ => ensures_pure h1
  obtain ⟨hto, hlt, hkind, hplaced, span, hspan, hlow, hle, hhigh⟩ := h1
  refine ensures_make.imp ?_
  rintro _ _ ⟨rfl, rfl⟩
  rw [hspan, Option.getD_some]
  refine ⟨hto, hlt, rfl, ?_, span, rfl, hlow, hle, hhigh⟩
  have hbounds : Bounded lexed.tokens result.1.kind span := by
    cases hplaced with
    | intro place bounds =>
      rw [hspan] at place
      cases place
      exact bounds
  rw [bounded_of_isForm hkind] at hbounds
  refine placed_of_row rfl rfl hbounds.1 hbounds.2.1 hbounds.2.2 ?_
  exact Fits.row ⟨hplaced, span, hspan, Nat.le_refl _, hle, Nat.le_refl _⟩

/-- An expression with `new` is read. -/
theorem ensures_construction : Ensures (construction recur) cursor (Reads lexed cursor) := by
  refine ensures_start_bind.2 ?_
  have h := hr.sound
  refine (ensures_advance_any h).bind fun word c1 h1 => ?_
  refine (ensures_eat h1.1.sound ".").bind fun taken c2 h2 => ?_
  refine ensures_ite (fun htaken => ?_) fun _ => ?_
  · rcases h1.2 with htook | hnil
    · exact ensures_metaProperty h htook h2.1
    · exact absurd (h2.2.1 htaken) (h1.1.sound.not_lt_of_nil h2.1.sound hnil)
  refine ensures_start_bind.2 (ensures_isAt_bind.2 ?_)
  have hto := h1.1.trans h2.1
  refine ensures_choice (fun hnew => hr.reads ?_) (fun _ => ensures_primary (hr.to hto)) ?_
  · -- the end was not taken, since a word is next
    rcases h1.2 with htook | hnil
    · exact htook.1.to h2.1
    · obtain ⟨_, _, hpending, -⟩ := h2.1.sound.pending_of_kind (Cursor.kind_of_is hnew)
      have hsuffix := h2.1.2.2.2
      rw [hpending, hnil] at hsuffix
      exact absurd hsuffix.length_le (Nat.not_succ_le_zero _)
  intro callee c3 h3
  refine (ensures_tail (hr.to hto) h3).bind fun callee' c4 h4 => ?_
  have s4 := h4.since hto
  refine ensures_isAt_bind.2 (ensures_choice (fun _ => (ensures_arguments (hr.to s4.1)).imp
    fun _ _ h5 => h5.spread s4.sound)
    (fun _ => ensures_pure ⟨s4.sound.to, .nil (Nat.le_refl _)⟩) fun arguments c5 h5 => ?_)
  exact (s4.step h5).finish h rfl (congrArg (_ :: ·) (append_nil _))

/-- An expression that may be called or assigned to is read. -/
theorem ensures_leftHandSide : Ensures (leftHandSide recur) cursor (Reads lexed cursor) := by
  refine ensures_start_bind.2 (ensures_isAt_bind.2 ?_)
  refine ensures_choice (fun _ => ensures_construction hr) (fun _ => ensures_primary hr) ?_
  exact fun base c1 h1 => ensures_tail hr h1

/-- An operator before an operand is read with it. -/
theorem ensures_operand {kind : Kind} {fields : Node → List (Field × Value)}
    (hnext : cursor.next.kind ≠ .endOfInput) (hkind : kind.isForm = true)
    (hvalues : ∀ node, fieldValues kind (fields node) = [.node node]) :
    Ensures (do
      skip
      let argument ← recur .unary
      finish kind cursor.front (fields argument)) cursor (Reads lexed cursor) := by
  refine (ensures_skip hr.sound hnext).bind fun _ c1 h1 => ?_
  refine (hr.reads h1.1).bind fun argument c2 h2 => ?_
  exact (h2.since h1.1.1).finish hr.sound hkind (hvalues argument)

/-- An expression is read with the operators before it and the update after it. -/
theorem ensures_unary : Ensures (unary recur) cursor (Reads lexed cursor) := by
  refine ensures_current_bind.2 (ensures_get_bind.2 ?_)
  refine ensures_ite (fun hop => ensures_operand hr (fun hend => ?_) rfl fun _ => rfl) fun _ => ?_
  · simp [hend] at hop
  refine ensures_ite (fun hop => ensures_operand hr (fun hend => ?_) rfl fun _ => rfl) fun _ => ?_
  · simp [isUpdate, Token.isPunctuator, hend] at hop
  refine ensures_ite (fun hop => ensures_operand hr (fun hend => ?_) rfl fun _ => rfl) fun _ => ?_
  · simp [hend] at hop
  refine (ensures_leftHandSide hr).bind fun expression c1 h1 => ?_
  refine ensures_current_bind.2 (ensures_ite (fun _ => ?_) fun _ => ensures_pure h1)
  refine (h1.since hr.sound.to).pass (ensures_skip_any h1.1.sound) fun _ c2 s2 => ?_
  exact s2.finish hr.sound rfl rfl

omit hr in
/-- A binary operator is read with its right operand, around what came before it. -/
theorem ensures_binaryStep {floor : Nat} {left : Node} (hr : Recurs lexed before recur)
    (hleft : Reads lexed before left cursor) :
    Ensures (binaryStep recur floor before.front left) cursor
      (Stepped lexed (Reads lexed before) left cursor) := by
  refine ensures_binaryOperator?.bind ?_
  rintro operator? _ rfl
  split
  case h_1 => exact ensures_pure hleft
  case h_2 operator rank =>
    refine ensures_ite (fun _ => ensures_pure hleft) fun _ => ?_
    refine (ensures_skip_any hleft.1.sound).bind fun _ c1 h1 => ?_
    have s1 := (hleft.since hr.sound.to).to h1
    refine (hr.reads s1.moves).bind fun right c2 h2 => ?_
    refine Ensures.bind ((s1.step (h2.spread s1.sound)).finish_moves hr.sound
      (h2.moves.after h1) ?_ ?_) fun joined c3 h3 => ensures_pure h3
    · split <;> rfl
    · split <;> rfl

/-- An expression of binary operators is read. -/
theorem ensures_binary {floor : Nat} :
    Ensures (binary recur floor) cursor (Reads lexed cursor) := by
  refine ensures_start_bind.2 ?_
  refine (ensures_unary hr).bind fun left c1 h1 => ?_
  exact ensures_stepping (Reads lexed cursor) (fun h => h.1.sound)
    (fun h => ensures_binaryStep hr h) h1

/-- A conditional expression is read. -/
theorem ensures_conditional : Ensures (conditional recur) cursor (Reads lexed cursor) := by
  refine ensures_start_bind.2 ?_
  have h := hr.sound
  refine (ensures_binary hr).bind fun test c1 h1 => ?_
  refine (ensures_eat h1.1.sound "?").bind fun _ c2 h2 => ?_
  refine ensures_ite (fun _ => ?_) fun _ => ensures_pure (h1.around h.to h2.1)
  have s2 := (h1.since h.to).to h2.1
  refine s2.read (ensures_allowingIn s2.sound fun _ hto => hr.reads (s2.moves.to hto))
    fun consequent c3 s3 => ?_
  refine s3.expect ":" fun c4 s4 => ?_
  refine s4.read (hr.reads s4.moves) fun alternate c5 s5 => ?_
  exact s5.finish h rfl rfl

/-- An expression with `yield` is read. -/
theorem ensures_yieldForm (hkind : cursor.next.kind ≠ .endOfInput) :
    Ensures (yieldForm recur) cursor (Reads lexed cursor) := by
  refine ensures_start_bind.2 ?_
  refine (ensures_skip hr.sound hkind).bind fun _ c1 h1 => ?_
  have hs := h1.1.1.sound
  have hnone : Row lexed.tokens c1.lastEnd [.null] c1.lastEnd := .hole (.nil (Nat.le_refl _))
  refine Since.readAll (f := fun result => [.ofNode? result.2]) h1.1.since ?_ ?_
  · refine ensures_current_bind.2 (ensures_ite (fun _ => ensures_pure ⟨hs.to, hnone⟩) fun _ => ?_)
    refine (ensures_eat hs "*").bind fun delegate c2 h2 => ?_
    refine ensures_current_bind.2 (ensures_ite (fun _ => ?_) fun _ => ?_)
    · refine (hr.reads (h1.1.to h2.1)).bind fun argument c3 h3 => ensures_pure ?_
      exact (h3.around h2.1 h3.1.sound.to).spread hs
    · exact ensures_pure ⟨h2.1, .hole (.nil h2.1.last_le)⟩
  · rintro ⟨delegate, argument?⟩ c2 s2
    exact s2.finish hr.sound rfl (by cases argument? <;> rfl)

/-- The parameters of an arrow function are read in a row. -/
theorem ensures_arrowParameters : Ensures (do
    if ← isAt "(" then allowingIn (parameters recur)
    else return [← identifier (← expectName)]) cursor fun items cursor' =>
      Since lexed cursor (items.map .node) cursor' := by
  refine ensures_isAt_bind.2 (ensures_ite (fun _ => ?_) fun _ => ?_)
  · exact ensures_within_since hr.sound fun _ hc => ensures_parameters (hr.to hc)
  · refine (ensures_expectName hr.sound).bind fun token c1 h1 => ?_
    exact h1.identifier.bind fun _ _ h2 => ensures_pure (h2.since hr.sound.to)

/-- An arrow function is read. -/
theorem ensures_arrow {isAsync : Bool} :
    Ensures (arrow recur isAsync) cursor (Reads lexed cursor) := by
  refine ensures_start_bind.2 (ensures_skip_if hr.sound fun c1 h1 => ensures_get_bind.2 ?_)
  refine Ensures.bind (ensures_within_since
    (f := fun parts => parts.1.map .node ++ [.node parts.2.1]) h1.sound fun c hc => ?_) ?_
  · have hr1 := hr.to (h1.trans hc)
    refine (ensures_arrowParameters hr1).bind fun parameters c2 s2 => ?_
    refine s2.expect "=>" fun c3 s3 => ?_
    refine ensures_isAt_bind.2 (ensures_ite (fun _ => ?_) fun _ => ?_)
    · refine s3.read (ensures_allowingIn s3.sound
        fun _ h4 => ensures_block (hr1.to (s3.1.trans h4))) ?_
      exact fun _ _ s4 => ensures_pure s4
    · exact s3.read (hr1.reads s3.moves) fun _ _ s4 => ensures_pure s4
  · exact fun parts c2 s2 => (s2.after h1).finish hr.sound rfl rfl

/-- An expression without a comma is read. -/
theorem ensures_assignment : Ensures (assignment recur) cursor (Reads lexed cursor) := by
  refine ensures_current_bind.2 (ensures_get_bind.2 (ensures_ite (fun hyield => ?_) fun _ => ?_))
  · refine ensures_yieldForm hr ?_
    have hname : cursor.next.kind = .name := by
      simp only [Bool.and_eq_true, beq_iff_eq] at hyield
      exact hyield.1.1
    rw [hname]
    nofun
  · refine ensures_arrowAhead?.bind ?_
    rintro isAsync? _ rfl
    split
    case h_1 => exact ensures_arrow hr
    case h_2 =>
      refine (ensures_conditional hr).bind fun left c1 h1 => ?_
      refine ensures_current_bind.2 (ensures_ite (fun _ => ?_) fun _ => ensures_pure h1)
      refine (ensures_skip_any h1.1.sound).bind fun _ c2 h2 => ?_
      have hleft := h1.around hr.sound.to h2
      refine ensures_choice (fun _ => ensures_assignmentTarget hleft)
        (fun _ => ensures_pure ⟨rfl, hleft⟩) ?_
      rintro target _ ⟨rfl, htarget⟩
      refine (Reads.since htarget hr.sound.to).read (hr.reads (Reads.moves htarget))
        fun _ c3 s3 => ?_
      exact s3.finish hr.sound rfl rfl

/-- Expressions parted by commas are read. -/
theorem ensures_expression : Ensures (expression recur) cursor (Reads lexed cursor) := by
  refine ensures_start_bind.2 ?_
  have h := hr.sound
  refine (ensures_assignment hr).bind fun first c1 h1 => ?_
  refine (ensures_many_nodes ?_ h1.1.sound).bind fun later c2 h2 => ?_
  · intro c2 h2
    refine (ensures_eat h2.1 ",").bind fun _ c3 h3 => ensures_ite (fun _ => ?_) fun _ => ?_
    · refine (hr.reads (h1.moves.to (h2.trans h3.1))).bind fun item c4 h4 => ensures_pure ?_
      exact (h4.around h3.1 h4.1.sound.to).round h2.1
    · exact ensures_pure h3.1
  · refine ensures_ite (fun _ => ensures_pure (h1.around h.to h2.1)) fun _ => ?_
    exact ((h1.since h.to).step h2).finish h rfl (append_nil _)

end

end DocTypes.TreeReader
