import DocTypes.Proofs.Reader.Pattern

/-!
# Where functions and classes stand

What the readers of blocks, functions and classes ensure. Each takes a token at least and closes its
node over what was read since (`Since.finish`). A static block is the exception: it takes over the
statements of a block that was closed, in a wider span.
-/

namespace DocTypes.TreeReader

section
variable {lexed : Lexed} {before cursor : Cursor}
  {recur : Goal → TreeReader Node}

/-- A block is a block. -/
theorem grants_block_kind : Grants (block recur) cursor fun node _ =>
    node.kind = .blockStatement :=
  grants_bind_last fun _ _ => grants_bind_last fun _ _ => grants_bind_last fun _ _ =>
    grants_bind_last fun _ _ node next hrun => (grants_finish node next hrun).1

/-- A name that is there is read. -/
theorem ensures_someName (h : cursor.Sound lexed)
    (hkind : cursor.next.kind = .name) :
    Ensures (do return some (← identifier (← advance))) cursor fun name? cursor' =>
      Spread lexed cursor [.ofNode? name?] cursor' := by
  refine (ensures_advance h (by rw [hkind]; nofun)).bind fun token c1 h1 => ?_
  exact h1.1.identifier.bind fun _ _ h2 => ensures_pure (h2.spread h)

/-- Nothing is read where nothing is. -/
theorem ensures_none (h : cursor.Sound lexed) :
    Ensures (pure none : TreeReader (Option Node)) cursor fun node? cursor' =>
      Spread lexed cursor [.ofNode? node?] cursor' :=
  ensures_pure ⟨h.to, .hole (.nil (Nat.le_refl _))⟩

/-- Looking for a modifier moves nothing. -/
theorem ensures_modifierAhead : Ensures modifierAhead cursor fun _ cursor' => cursor' = cursor :=
  ensures_peek_bind.2 (ensures_pure rfl)

/-- What stands before a key is passed. -/
theorem ensures_keyModifiers (h : cursor.Sound lexed) :
    Ensures keyModifiers cursor fun _ cursor' => cursor.To lexed cursor' := by
  have hasync : Ensures (do
      if (← isAt "async") && (← modifierAhead) && !(← peek 1).afterBreak then
        skip
        return true
      else return false) cursor fun _ cursor' => cursor.To lexed cursor' := by
    refine ensures_isAt_bind.2 (ensures_modifierAhead.bind ?_)
    rintro _ _ rfl
    refine ensures_peek_bind.2 (ensures_ite (fun _ => ?_) fun _ => ensures_pure h.to)
    exact (ensures_skip_any h).bind fun _ _ hto => ensures_pure hto
  refine hasync.bind fun isAsync c1 h1 => ?_
  refine (ensures_eat h1.sound "*").bind fun isGenerator c2 h2 => ?_
  have haccessor : Ensures (do
      if ((← isAt "get") || (← isAt "set")) && (← modifierAhead) then return some (← advance).text
      else return none) c2 fun _ cursor' => c2.To lexed cursor' := by
    refine ensures_isAt_bind.2 (ensures_isAt_bind.2 (ensures_modifierAhead.bind ?_))
    rintro _ _ rfl
    refine ensures_ite (fun _ => ?_) fun _ => ensures_pure h2.1.sound.to
    exact (ensures_advance_any h2.1.sound).bind fun _ _ hpost => ensures_pure hpost.1
  exact haccessor.bind fun _ _ h3 => ensures_pure ((h1.trans h2.1).trans h3)

/-- Asking for the end of a statement moves nothing. -/
theorem ensures_statementEnds : Ensures statementEnds cursor fun _ cursor' => cursor' = cursor :=
  ensures_current_bind.2 (ensures_pure rfl)

/-- A semicolon is passed, if it is there. -/
theorem ensures_semicolon (h : cursor.Sound lexed) :
    Ensures semicolon cursor fun _ cursor' => cursor.To lexed cursor' := by
  refine (ensures_eat h ";").bind fun _ c1 h1 => ?_
  refine ensures_ite (fun _ => ensures_pure h1.1) fun _ => ?_
  refine ensures_statementEnds.bind ?_
  rintro _ _ rfl
  refine ensures_ite (fun _ => ?_) fun _ => ensures_pure h1.1
  exact ensures_current_bind.2 (ensures_fail h1.1.sound)

/-- What is arranged in a span is arranged in a wider one. -/
theorem arranged_widen {span span' : Span} {values : List Value} (h : Arranged span values)
    (hstart : span'.start ≤ span.start) (hstop : span.stop ≤ span'.stop) :
    Arranged span' values where
  nodes := h.nodes
  inside inner hmem :=
    have hinner := h.inside inner hmem
    ⟨Nat.le_trans hstart hinner.start, hinner.order, Nat.le_trans hinner.stop hstop⟩

/-- A static block takes over the statements of a block. -/
theorem ensures_finish_staticBlock {block : Node} {after : Cursor} (h : before.Sound lexed)
    (hto : before.To lexed after)
    (hblock : Reads lexed after block cursor) (hkind : block.kind = .blockStatement) :
    Ensures (finish .staticBlock before.front [(.body, block.get .body)]) cursor
      (Reads lexed before) := by
  have hvalues : fieldValues .staticBlock [(.body, block.get .body)] = block.childValues := by
    rw [Node.childValues, hkind]
    rfl
  obtain ⟨hto', hlt, _, hplaced, span, hspan, hlow, _, hhigh⟩ := hblock
  have hlt' := Nat.lt_of_le_of_lt hto.front_le hlt
  cases hplaced with
  | intro place _ arranged below turns =>
    rw [hspan] at place
    cases place
    refine ensures_finish (h.starts (hto.trans hto') hlt') (hto.trans hto') rfl hlt' ?_ ?_ ?_
    · rw [hvalues]
      exact arranged_widen arranged (Nat.le_trans hto.front_le hlow) hhigh
    · rw [hvalues]
      exact below
    · rw [hkind] at turns
      rw [hvalues]
      exact (inTurn_of_ne (by decide)).2 ((inTurn_of_ne (by decide)).1 turns)

/-- The members that are there, as the values that were read for each. -/
theorem nodes_reduceOption (members : List (Option Node)) :
    members.reduceOption.map Value.node =
      members.flatMap fun member? => member?.toList.map Value.node := by
  induction members with
  | nil => rfl
  | cons member? rest ih =>
    cases member? with
    | none => exact ih
    | some member => exact congrArg (Value.node member :: ·) ih

variable (hr : Recurs lexed cursor recur)
include hr

/-- A block is read, with its statements in a row. -/
theorem ensures_block : Ensures (block recur) cursor (Reads lexed cursor) := by
  refine ensures_start_bind.2 ?_
  refine (ensures_expect hr.sound _).bind fun _ c1 h1 => ?_
  refine h1.since.readAll (ensures_many_nodes ?_ h1.1.sound) ?_
  · intro c2 h2
    refine ensures_isAt_bind.2 (ensures_ite (fun _ => ensures_pure h2.1.to) fun _ => ?_)
    refine ensures_isAtKind_bind.2 (ensures_guard h2.1 fun _ => ?_)
    exact (hr.reads (h1.to h2)).bind fun _ _ h3 => ensures_pure (h3.round h2.1)
  · intro body c2 s2
    refine s2.pass (ensures_skip_any s2.sound) fun _ c3 s3 => ?_
    exact s3.finish hr.sound rfl (List.append_nil _)

/-- Parameters are read in a row. -/
theorem ensures_parameters : Ensures (parameters recur) cursor fun items cursor' =>
    Since lexed cursor (items.map .node) cursor' := by
  refine (ensures_expect hr.sound "(").bind fun _ c1 h1 => ?_
  refine h1.since.readAll (ensures_many_nodes ?_ h1.1.sound) fun items c2 s2 => ?_
  · intro c2 h2
    exact ensures_item h2.1 (ensures_bindingElement (hr.to (h1.1.trans h2)))
  · refine (ensures_expect s2.sound ")").bind fun _ c3 h3 => ensures_pure ?_
    exact s2.to h3.1

/-- The parameters and the body of a function are read in a row. -/
theorem ensures_functionRest {isAsync isGenerator : Bool} :
    Ensures (functionRest recur isAsync isGenerator) cursor fun rest cursor' =>
      Since lexed cursor (rest.1.map .node ++ [.node rest.2]) cursor' := by
  refine ensures_within (fun scope => ?_) fun _ _ _ hpost => hpost
  refine (ensures_parameters (hr.scoped scope)).bind fun items c1 s1 => ?_
  exact s1.read (ensures_block ((hr.scoped scope).to s1.1)) fun body c2 s2 => ensures_pure s2

/-- A function is read. -/
theorem ensures_function {declared mayLackName : Bool} :
    Ensures (function recur declared mayLackName) cursor (Reads lexed cursor) := by
  refine ensures_start_bind.2 ?_
  refine (ensures_eat hr.sound "async").bind fun isAsync c1 h1 => ?_
  refine (ensures_expect h1.1.sound "function").bind fun _ c2 h2 => ?_
  have s2 := (h2.after h1.1).since
  refine s2.pass ((ensures_eat h2.1.sound "*").imp fun _ _ h3 => h3.1) fun _ c3 s3 => ?_
  refine s3.readOption ?_ fun name? c4 s4 => ?_
  · refine ensures_isAtKind_bind.2 (ensures_ite (fun hname => ?_) fun _ => ?_)
    · exact ensures_someName s3.sound (by simpa using hname)
    · exact ensures_ite (fun _ => ensures_fail s3.sound) fun _ => ensures_none s3.sound
  · refine (ensures_functionRest (hr.to s4.1)).bind fun rest c5 h5 => ?_
    have s5 := s4.append h5
    cases declared <;> exact s5.finish hr.sound rfl (by cases name? <;> rfl)

/-- The function that a method is is read. -/
theorem ensures_methodValue {isAsync isGenerator : Bool} :
    Ensures (methodValue recur isAsync isGenerator) cursor (Reads lexed cursor) := by
  refine ensures_start_bind.2 ?_
  refine (ensures_functionRest hr).bind fun rest c1 s1 => ?_
  have hrow : Row lexed.tokens cursor.front
      (.null :: (rest.1.map .node ++ [.node rest.2])) c1.lastEnd := .hole s1.2.2
  exact Since.finish ⟨s1.1, s1.2.1, hrow⟩ hr.sound rfl rfl

omit hr in
/-- A method is read from its key on. -/
theorem ensures_method {key : Node} {computed isStatic isAsync isGenerator : Bool}
    {accessor? : Option String} (hr : Recurs lexed before recur)
    (hkey : Since lexed before [.node key] cursor) :
    Ensures (method recur before.front key computed isStatic isAsync isGenerator accessor?) cursor
      (Reads lexed before) :=
  hkey.read (ensures_methodValue (hr.to hkey.1)) fun _ _ s1 => s1.finish hr.sound rfl rfl

omit hr in
/-- A field of a class is read from its key on. -/
theorem ensures_classField {key : Node} {computed isStatic : Bool} (hr : Recurs lexed before recur)
    (hkey : Since lexed before [.node key] cursor) :
    Ensures (classField recur before.front key computed isStatic) cursor
      (Reads lexed before) := by
  refine hkey.readOption (ensures_eat_then hkey.sound fun c hc => ?_) fun value? c1 s1 => ?_
  · exact ensures_within (fun scope => hr.reads (hc.after hkey.1)) fun _ _ _ hpost => hpost
  · refine s1.pass (ensures_semicolon s1.sound) fun _ c2 s2 => ?_
    exact s2.finish hr.sound rfl (by cases value? <;> rfl)

/-- A member of a class is read. -/
theorem ensures_classMember : Ensures (classMember recur) cursor (Reads lexed cursor) := by
  refine ensures_start_bind.2 ?_
  have hstatic : Ensures (do
      if (← isAt "static") && (← modifierAhead) then
        skip
        return true
      else return false) cursor fun _ cursor' => cursor.To lexed cursor' := by
    refine ensures_isAt_bind.2 (ensures_modifierAhead.bind ?_)
    rintro _ _ rfl
    refine ensures_ite (fun _ => ?_) fun _ => ensures_pure hr.sound.to
    exact (ensures_skip_any hr.sound).bind fun _ _ hto => ensures_pure hto
  refine hstatic.bind fun isStatic c1 h1 => ?_
  refine ensures_isAt_bind.2 (ensures_ite (fun _ => ?_) fun _ => ?_)
  · have hblock : Ensures (within Scope.member (block recur)) c1 fun node cursor' =>
        Reads lexed c1 node cursor' ∧ node.kind = .blockStatement :=
      ensures_within (fun scope => (ensures_block ((hr.to h1).scoped scope)).and grants_block_kind)
        fun _ _ _ hpost => hpost
    exact hblock.bind fun _ _ h2 => ensures_finish_staticBlock hr.sound h1 h2.1 h2.2
  · refine (ensures_keyModifiers h1.sound).bind fun modifiers c2 h2 => ?_
    refine (ensures_propertyKey (hr.to (h1.trans h2))).bind fun key c3 h3 => ?_
    have s3 := h3.since (h1.trans h2)
    refine ensures_isAt_bind.2 (ensures_ite (fun _ => ?_) fun _ => ?_)
    · exact ensures_method hr s3
    · exact ensures_classField hr s3

/-- The body of a class is read, with its members in a row. -/
theorem ensures_classBody : Ensures (classBody recur) cursor (Reads lexed cursor) := by
  refine ensures_start_bind.2 ?_
  refine (ensures_expect hr.sound _).bind fun _ c1 h1 => ?_
  refine h1.since.readAll (ensures_many (fun member? => member?.toList.map .node) ?_ h1.1.sound) ?_
  · intro c2 h2
    refine (ensures_eat h2.1 _).bind fun _ c3 h3 => ?_
    refine ensures_ite (fun _ => ensures_pure h3.1) fun _ => ?_
    refine (ensures_eat h3.1.sound ";").bind fun _ c4 h4 => ?_
    have hto := h3.1.trans h4.1
    refine ensures_ite (fun ht => ensures_pure ⟨?_, .nil hto.last_le⟩) fun _ => ?_
    · exact Moves.after ⟨h4.1, h4.2.1 ht⟩ h3.1
    refine ensures_isAtKind_bind.2 (ensures_guard hto.1 fun _ => ?_)
    refine (ensures_classMember (hr.to (h1.1.trans (h2.trans hto)))).bind
      fun member c5 h5 => ensures_pure ?_
    exact (h5.around hto h5.1.sound.to).round h2.1
  · intro members c2 s2
    refine s2.finish hr.sound rfl ?_
    change members.reduceOption.map Value.node ++ [] = _
    rw [List.append_nil, nodes_reduceOption, List.nil_append]

/-- A class is read. -/
theorem ensures_classDefinition {declared mayLackName : Bool} :
    Ensures (classDefinition recur declared mayLackName) cursor (Reads lexed cursor) := by
  refine ensures_start_bind.2 ?_
  refine (ensures_expect hr.sound "class").bind fun _ c1 h1 => ?_
  refine h1.since.readOption ?_ fun name? c2 s2 => ?_
  · refine ensures_isAtKind_bind.2 (ensures_isAt_bind.2 (ensures_ite (fun hname => ?_) fun _ => ?_))
    · exact ensures_someName h1.1.sound (by simpa using (Bool.and_eq_true_iff.1 hname).1)
    · exact ensures_ite (fun _ => ensures_fail h1.1.sound) fun _ => ensures_none h1.1.sound
  · refine s2.readOption (ensures_eat_then s2.sound fun _ h3 => hr.reads (h3.after s2.1))
      fun super? c3 s3 => ?_
    refine s3.read (ensures_classBody (hr.to s3.1)) fun body c4 s4 => ?_
    cases declared <;> exact s4.finish hr.sound rfl (by cases name? <;> cases super? <;> rfl)

end

end DocTypes.TreeReader
