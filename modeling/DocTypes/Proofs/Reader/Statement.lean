import DocTypes.Proofs.Reader.Expression

/-!
# Where statements stand

What the readers of statements and of module declarations ensure. A statement that starts with a
word takes that word, so each of these readers is followed from there on (`Since`).
-/

namespace DocTypes.TreeReader

section
variable {lexed : Lexed} {before cursor : Cursor}
  {recur : Goal → TreeReader Node}

/-- Looking at the token after `let` moves nothing. -/
theorem ensures_letDeclares : Ensures letDeclares cursor fun _ cursor' => cursor' = cursor :=
  ensures_peek_bind.2 (ensures_pure rfl)

/-- Looking for a function moves nothing. -/
theorem ensures_functionFollows :
    Ensures functionFollows cursor fun _ cursor' => cursor' = cursor :=
  ensures_peek_bind.2 (ensures_pure rfl)

section
variable (h : cursor.Sound lexed)
include h

/-- A string that names a module is read. -/
theorem ensures_moduleSource : Ensures moduleSource cursor (Reads lexed cursor) := by
  refine ensures_current_bind.2 (ensures_guard h fun hkind => ?_)
  have hstring : cursor.next.kind = .string := by simpa using hkind
  refine (ensures_skip h (by rw [hstring]; nofun)).bind fun _ _ htook => ?_
  exact htook.stringLiteral

/-- A name that a module exports is read. -/
theorem ensures_moduleName : Ensures moduleName cursor (Reads lexed cursor) := by
  refine ensures_isAtKind_bind.2 (ensures_ite (fun _ => ensures_moduleSource h) fun _ => ?_)
  exact ensures_expectIdentifier h

/-- The attributes after a module's name are passed. -/
theorem ensures_skipAttributes :
    Ensures skipAttributes cursor fun _ cursor' => cursor.To lexed cursor' := by
  refine ensures_isAt_bind.2 (ensures_isAt_bind.2 (ensures_peek_bind.2 ?_))
  refine ensures_ite (fun _ => ?_) fun _ => ensures_pure h.to
  refine (ensures_skip_any h).bind fun _ c1 h1 => ?_
  refine (ensures_skip_any h1.sound).bind fun _ c2 h2 => ?_
  refine (ensures_many (fun _ => []) ?_ h2.sound).bind fun _ c3 h3 => ?_
  · intro c3 h3
    refine (ensures_eat h3.1 _).bind fun _ c4 h4 => ?_
    refine ensures_ite (fun _ => ensures_pure h4.1) fun _ => ?_
    refine ensures_isAtKind_bind.2 (ensures_guard h4.1.sound fun hkind => ?_)
    refine (ensures_skip h4.1.sound (by simpa using hkind)).bind fun _ c5 h5 => ensures_pure ?_
    exact ⟨h5.1.after h4.1, .nil (h4.1.trans h5.1.1).last_le⟩
  · exact ensures_pure ((h1.trans h2).trans h3.1)

/-- Names in braces are read in a row. -/
theorem ensures_specifiers {kind : Kind} {first second : Field} {renamed : TreeReader Node}
    (hkind : kind.isForm = true) (hne : kind ≠ .templateLiteral)
    (hvalues : ∀ name newName, fieldValues kind [(first, .node name), (second, .node newName)] =
      [.node name, .node newName]) (hrenamed : ∀ cursor : Cursor, cursor.Sound lexed →
      Ensures renamed cursor (Reads lexed cursor)) :
    Ensures (specifiers kind first second renamed) cursor fun items cursor' =>
      Spread lexed cursor (items.map .node) cursor' := by
  refine ensures_many_nodes (fun c1 h1 => ?_) h
  refine (ensures_eat h1.1 _).bind fun _ c2 h2 => ?_
  refine ensures_ite (fun _ => ensures_pure h2.1) fun _ => ?_
  refine ensures_start_bind.2 ?_
  refine (ensures_moduleName h2.1.sound).bind fun name c3 h3 => ?_
  refine (ensures_eat h3.1.sound "as").bind fun _ c4 h4 => ?_
  have hclose : ∀ {specifier : Node} {last : Cursor}, Reads lexed c2 specifier last →
      Ensures (do
        if ← eat "," then return some (specifier, true)
        expect "\x7d"
        return some (specifier, false)) last
        (Round lexed (fun node => [.node node]) c1) := by
    intro specifier last hread
    refine (ensures_eat hread.1.sound ",").bind fun _ c5 h5 => ?_
    refine ensures_ite (fun _ => ensures_pure ((hread.around h2.1 h5.1).round h1.1)) fun _ => ?_
    refine (ensures_expect h5.1.sound _).bind fun _ c6 h6 => ensures_pure ?_
    exact (hread.around h2.1 (h5.1.trans h6.1)).round h1.1
  refine ensures_ite (fun _ => ?_) fun _ => ?_
  · refine ((h3.since h2.1.sound.to).to h4.1).read (hrenamed c4 h4.1.sound) fun newName c5 s5 => ?_
    exact Ensures.bind (s5.finish h2.1.sound hkind (hvalues name newName))
      fun _ _ hread => hclose hread
  · refine (ensures_bind_of_eq rfl).2 ?_
    have hname := h3.around h2.1.sound.to h4.1
    exact Ensures.bind (ensures_finish_twins h2.1.sound hname h4.1.sound.to hname.twin hkind hne
      (hvalues name name)) fun _ _ hread => hclose hread

/-- The default name of an import is read. -/
theorem ensures_defaultSpecifier? :
    Ensures defaultSpecifier? cursor fun items cursor' =>
      Spread lexed cursor (items.map .node) cursor' := by
  refine ensures_current_bind.2 (ensures_peek_bind.2 (ensures_ite (fun hname => ?_) fun _ => ?_))
  · have hkind : cursor.next.kind ≠ .endOfInput := by
      simp only [Bool.and_eq_true, beq_iff_eq] at hname
      rw [hname.1]
      nofun
    refine (ensures_skip h hkind).bind fun _ c1 h1 => ?_
    refine (h1.identifier_later h1.1.1.sound.to).bind fun name c2 h2 => ?_
    refine ensures_make.bind ?_
    rintro _ _ ⟨rfl, rfl⟩
    have hsound : Cursor.Sound lexed { c2 with fresh := c2.fresh + 1 } := h2.1.sound
    refine (ensures_eat hsound ",").bind fun _ c3 h3 => ensures_pure ?_
    obtain ⟨⟨hto, hlt⟩, hmem, hstart, hstop⟩ := h1
    rw [← hstart, ← hstop] at h2
    rw [← hstart, ← hstop] at hlt
    refine ⟨(hto.trans h2.1).trans h3.1, Fits.row ⟨?_, cursor.next.span, rfl, h.gap,
      Nat.le_of_lt hlt, ?_⟩⟩
    · exact placed_of_row rfl rfl ⟨_, hmem, rfl⟩ ⟨_, hmem, rfl⟩ hlt h2.2.2.row
    · rw [hstop]
      exact (h2.1.trans h3.1).last_le
  · exact ensures_pure ⟨h.to, .nil (Nat.le_refl _)⟩

/-- The names of an import that are not the default are read in a row. -/
theorem ensures_namedSpecifiers :
    Ensures namedSpecifiers cursor fun items cursor' =>
      Spread lexed cursor (items.map .node) cursor' := by
  refine ensures_start_bind.2 ?_
  refine (ensures_eat h "*").bind fun _ c1 h1 => ensures_ite (fun _ => ?_) fun _ => ?_
  · refine (ensures_expect h1.1.sound "as").bind fun _ c2 h2 => ?_
    refine (ensures_expectName h2.1.sound).bind fun token c3 h3 => ?_
    refine h3.identifier.bind fun name c4 h4 => ?_
    refine Ensures.bind ((h4.since (h1.1.trans h2.1)).finish h rfl rfl) fun _ c5 h5 => ?_
    exact ensures_pure (h5.spread h)
  · refine (ensures_eat h1.1.sound _).bind fun _ c2 h2 => ensures_ite (fun _ => ?_) fun _ => ?_
    · have hto := h1.1.trans h2.1
      refine Ensures.imp (ensures_specifiers h2.1.sound rfl nofun (fun _ _ => rfl)
        fun _ hc => ensures_expectIdentifier hc) fun items c3 h3 => ?_
      exact ⟨hto.trans h3.1, h3.2.mono_low hto.last_le⟩
    · exact ensures_pure ⟨h1.1.trans h2.1, .nil (h1.1.trans h2.1).last_le⟩

/-- The names of an import are read in a row, up to its module. -/
theorem ensures_importNames :
    Ensures (do
      if ← isAtKind .string then return []
      let default ← defaultSpecifier?
      let named ← namedSpecifiers
      expect "from"
      return default ++ named) cursor fun items cursor' =>
        Spread lexed cursor (items.map .node) cursor' := by
  refine ensures_isAtKind_bind.2 (ensures_ite (fun _ => ?_) fun _ => ?_)
  · exact ensures_pure ⟨h.to, .nil (Nat.le_refl _)⟩
  · refine (ensures_defaultSpecifier? h).bind fun default c1 h1 => ?_
    refine (ensures_namedSpecifiers h1.1.sound).bind fun named c2 h2 => ?_
    refine (ensures_expect h2.1.sound "from").bind fun _ c3 h3 => ensures_pure ?_
    refine ⟨(h1.1.trans h2.1).trans h3.1, ?_⟩
    rw [List.map_append]
    exact (h1.2.append h2.2).mono_high h3.1.last_le

/-- An import declaration is read. -/
theorem ensures_importDeclaration (hkind : cursor.next.kind ≠ .endOfInput) :
    Ensures importDeclaration cursor (Reads lexed cursor) := by
  refine ensures_start_bind.2 ?_
  refine (ensures_skip h hkind).bind fun _ c1 h1 => ?_
  refine h1.1.since.readAll (ensures_importNames h1.1.1.sound) fun items c2 s2 => ?_
  refine s2.read (ensures_moduleSource s2.sound) fun name c3 s3 => ?_
  refine s3.pass (ensures_skipAttributes s3.sound) fun _ c4 s4 => ?_
  refine s4.pass (ensures_semicolon s4.sound) fun _ c5 s5 => ?_
  exact s5.finish h rfl rfl

end

/-- What follows `export *` is read. -/
theorem ensures_exportAll (h : before.Sound lexed)
    (hs : Since lexed before [] cursor) :
    Ensures (exportAll before.front) cursor (Reads lexed before) := by
  refine hs.readOption (ensures_eat_then hs.sound fun _ hc => ensures_moduleName hc.1.1)
    fun exported? c1 s1 => ?_
  refine s1.expect "from" fun c2 s2 => ?_
  refine s2.read (ensures_moduleSource s2.sound) fun name c3 s3 => ?_
  refine s3.pass (ensures_skipAttributes s3.sound) fun _ c4 s4 => ?_
  refine s4.pass (ensures_semicolon s4.sound) fun _ c5 s5 => ?_
  exact s5.finish h rfl (by cases exported? <;> rfl)

/-- What follows `export` and an opening brace is read. -/
theorem ensures_exportNames (h : before.Sound lexed)
    (hs : Since lexed before [] cursor) :
    Ensures (exportNames before.front) cursor (Reads lexed before) := by
  refine hs.readAll (ensures_specifiers hs.sound rfl nofun (fun _ _ => rfl)
    fun _ hc => ensures_moduleName hc) fun items c1 s1 => ?_
  refine s1.readOption ?_ fun name? c2 s2 => ?_
  · refine (ensures_eat s1.sound "from").bind fun _ c2 h2 => ensures_ite (fun _ => ?_) fun _ => ?_
    · refine (ensures_moduleSource h2.1.sound).bind fun name c3 h3 => ?_
      refine (ensures_skipAttributes h3.1.sound).bind fun _ c4 h4 => ensures_pure ?_
      exact (h3.around h2.1 h4).spread s1.sound
    · exact ensures_pure ⟨h2.1, .hole (.nil h2.1.last_le)⟩
  · refine s2.pass (ensures_semicolon s2.sound) fun _ c3 s3 => ?_
    exact Since.finish ⟨s3.1, s3.2.1, .hole s3.2.2⟩ h rfl (by cases name? <;> rfl)

/-- A node may be given a wider span. -/
theorem placed_withSpan {tokens : List Token} {node : Node} {span span' : Span}
    (h : Placed tokens node) (hspan : node.span = some span) (hkind : node.kind.isForm = true)
    (hstart : span'.start ≤ span.start) (hstop : span.stop ≤ span'.stop)
    (hstarts : TokenStarts tokens span'.start) (hstops : TokenStops tokens span'.stop) :
    Placed tokens (node.withSpan (some span')) := by
  cases h with
  | intro place bounds arranged below turns =>
    rw [hspan] at place
    cases place
    obtain ⟨kind, id, span, parent, doc, fields⟩ := node
    rw [bounded_of_isForm (by exact hkind)] at bounds
    refine .intro rfl ((bounded_of_isForm hkind).2 ?_)
      (arranged_widen arranged hstart hstop) below turns
    exact ⟨hstarts, hstops,
      Nat.lt_of_le_of_lt hstart (Nat.lt_of_lt_of_le bounds.2.2 hstop)⟩

/-- A statement with `break` or `continue` is read. -/
theorem ensures_jumpStatement {kind : Kind} (h : cursor.Sound lexed)
    (hkind : cursor.next.kind ≠ .endOfInput) (hform : kind.isForm = true)
    (hfields : kind.childFields = [.label]) :
    Ensures (jumpStatement kind) cursor (Reads lexed cursor) := by
  refine ensures_start_bind.2 ?_
  refine (ensures_skip h hkind).bind fun _ c1 h1 => ensures_current_bind.2 ?_
  have hs := h1.1.1.sound
  refine h1.1.since.readOption ?_ fun label? c2 s2 => ?_
  · refine ensures_ite (fun hname => ?_) fun _ => ensures_none hs
    simp only [Bool.and_eq_true, beq_iff_eq] at hname
    exact ensures_someName hs hname.1
  · refine s2.pass (ensures_semicolon s2.sound) fun _ c3 s3 => ?_
    refine s3.finish h hform ?_
    rw [fieldValues, hfields]
    cases label? <;> rfl

/-- The statement `debugger` is read. -/
theorem ensures_debuggerStatement (h : cursor.Sound lexed)
    (hkind : cursor.next.kind ≠ .endOfInput) :
    Ensures debuggerStatement cursor (Reads lexed cursor) := by
  refine ensures_start_bind.2 ?_
  refine (ensures_skip h hkind).bind fun _ c1 h1 => ?_
  refine h1.1.since.pass (ensures_semicolon h1.1.1.sound) fun _ c2 s2 => ?_
  exact s2.finish h rfl rfl

/-- What follows `export default` is read. -/
theorem ensures_exportDefault (hr : Recurs lexed before recur)
    (hs : Since lexed before [] cursor) :
    Ensures (exportDefault recur before.front) cursor (Reads lexed before) := by
  refine hs.read ?_ fun declaration c1 s1 => s1.finish hr.sound rfl rfl
  refine ensures_isAt_bind.2 (ensures_isAt_bind.2 (ensures_functionFollows.bind ?_))
  rintro follows _ rfl
  refine ensures_ite (fun _ => ensures_function (hr.to hs.1)) fun _ => ?_
  refine ensures_isAt_bind.2 (ensures_ite (fun _ => ensures_classDefinition (hr.to hs.1)) ?_)
  intro _
  refine (hr.reads hs.moves).bind fun expression c1 h1 => ?_
  refine (ensures_semicolon h1.1.sound).bind fun _ c2 h2 => ?_
  exact ensures_pure (h1.around hs.sound.to h2)

/-- A declaration after `export` is read. -/
theorem ensures_exportDeclared (hr : Recurs lexed before recur)
    (hs : Since lexed before [] cursor) :
    Ensures (exportDeclared recur before.front) cursor (Reads lexed before) := by
  refine hs.read (hr.reads hs.moves) fun declaration c1 s1 => ensures_guard s1.sound fun _ => ?_
  have hrow : Row lexed.tokens before.front [.node declaration, .null] c1.lastEnd :=
    s1.2.2.append (.hole (.nil (Nat.le_refl _)))
  exact Since.finish ⟨s1.1, s1.2.1, hrow⟩ hr.sound rfl rfl

variable (hr : Recurs lexed cursor recur)
include hr

/-- An export declaration is read. -/
theorem ensures_exportDeclaration (hkind : cursor.next.kind ≠ .endOfInput) :
    Ensures (exportDeclaration recur) cursor (Reads lexed cursor) := by
  refine ensures_start_bind.2 ?_
  have h := hr.sound
  refine (ensures_skip h hkind).bind fun _ c1 h1 => ?_
  refine (ensures_eat h1.1.1.sound "default").bind fun _ c2 h2 => ?_
  have s2 := h1.1.since.to h2.1
  refine ensures_ite (fun _ => ensures_exportDefault hr s2) fun _ => ?_
  refine (ensures_eat s2.sound "*").bind fun _ c3 h3 => ?_
  refine ensures_ite (fun _ => ensures_exportAll h (s2.to h3.1)) fun _ => ?_
  refine (ensures_eat h3.1.sound _).bind fun _ c4 h4 => ?_
  have s4 := (s2.to h3.1).to h4.1
  exact ensures_ite (fun _ => ensures_exportNames h s4)
    fun _ => ensures_exportDeclared hr s4

/-- One name or pattern of a declaration is read. -/
theorem ensures_declarator : Ensures (declarator recur) cursor (Reads lexed cursor) := by
  refine ensures_start_bind.2 ?_
  refine (ensures_bindingTarget hr).bind fun target c1 h1 => ?_
  refine (h1.since hr.sound.to).readOption
    (ensures_eat_then h1.1.sound fun _ h2 => hr.reads (h2.after h1.1)) fun init? c2 s2 => ?_
  exact s2.finish hr.sound rfl (by cases init? <;> rfl)

/-- A declaration of variables is read, without its semicolon. -/
theorem ensures_variableDeclaration (hkind : cursor.next.kind ≠ .endOfInput) :
    Ensures (variableDeclaration recur) cursor (Reads lexed cursor) := by
  refine ensures_start_bind.2 ?_
  refine (ensures_advance hr.sound hkind).bind fun word c1 h1 => ?_
  have s1 := h1.1.1.since
  refine s1.readAll (ensures_many_nodes (fun c2 h2 => ?_) s1.sound) fun items c2 s2 => ?_
  · exact (ensures_declarator (hr.to (s1.1.trans h2))).bind fun _ _ h3 =>
      h3.comma (f := id) h2.1.to h2.1 rfl
  · exact s2.finish hr.sound rfl (List.append_nil _)

/-- A declaration of variables is read, with its semicolon. -/
theorem ensures_variableStatement (hkind : cursor.next.kind ≠ .endOfInput) :
    Ensures (variableStatement recur) cursor (Reads lexed cursor) := by
  refine ensures_start_bind.2 ?_
  refine (ensures_variableDeclaration hr hkind).bind fun declaration c1 h1 => ?_
  refine (ensures_semicolon h1.1.sound).bind fun _ c2 h2 => ?_
  refine ensures_get_bind.2 (ensures_pure ?_)
  obtain ⟨hto, hlt, hnode, hplaced, span, hspan, hlow, hle, hhigh⟩ := h1
  have hto2 := hto.trans h2
  have hlt2 := Nat.lt_of_lt_of_le hlt h2.last_le
  have hkept :
      (declaration.withSpan (some ⟨cursor.front, c2.lastEnd⟩)).kind = declaration.kind := by
    obtain ⟨kind, id, span, parent, doc, fields⟩ := declaration
    rfl
  have hspan' : (declaration.withSpan (some ⟨cursor.front, c2.lastEnd⟩)).span =
      some ⟨cursor.front, c2.lastEnd⟩ := by
    obtain ⟨kind, id, span, parent, doc, fields⟩ := declaration
    rfl
  refine ⟨hto2, hlt2, by rw [hkept]; exact hnode, ?_, _, hspan', Nat.le_refl _, Nat.le_of_lt hlt2,
    Nat.le_refl _⟩
  exact placed_withSpan hplaced hspan hnode hlow (Nat.le_trans hhigh h2.last_le)
    (hr.sound.starts hto2 hlt2)
    (hto2.sound.stops (by omega))

/-- An expression is read as a statement. -/
theorem ensures_expressionStatement :
    Ensures (expressionStatement recur) cursor (Reads lexed cursor) := by
  refine ensures_start_bind.2 ?_
  refine (ensures_expression hr).bind fun expression c1 h1 => ?_
  refine (h1.since hr.sound.to).pass (ensures_semicolon h1.1.sound) fun _ c2 s2 => ?_
  exact s2.finish hr.sound rfl rfl

/-- A statement with `if` is read. -/
theorem ensures_ifStatement : Ensures (ifStatement recur) cursor (Reads lexed cursor) := by
  refine ensures_start_bind.2 ?_
  refine (ensures_skip_any hr.sound).bind fun _ c1 h1 => ?_
  refine (ensures_parenthesized (hr.to h1)).bind fun test c2 h2 => ?_
  have s2 := h2.since h1
  refine s2.read (hr.reads s2.moves) fun consequent c3 s3 => ?_
  refine s3.readOption (ensures_eat_then s3.sound fun _ h4 => hr.reads (h4.after s3.1))
    fun alternate? c4 s4 => ?_
  exact s4.finish hr.sound rfl (by cases alternate? <;> rfl)

omit hr in
/-- What a `for` loop starts with is read. -/
theorem ensures_forInit (hr : RecursHere lexed cursor recur) :
    Ensures (forInit recur) cursor (Reads lexed cursor) := by
  refine ensures_within (fun scope => ?_) fun _ _ _ hpost => hpost
  refine ensures_isAt_bind.2 (ensures_isAt_bind.2 (ensures_isAt_bind.2 ?_))
  refine ensures_letDeclares.bind ?_
  rintro declares _ rfl
  refine ensures_ite (fun hword => ?_) fun _ => hr.reads hr.recurs.sound.to
  refine ensures_variableDeclaration (hr.recurs.scoped scope) ?_
  simp only [Bool.or_eq_true, Bool.and_eq_true] at hword
  rcases hword with (hword | hword) | hword
  · exact Cursor.kind_of_is hword
  · exact Cursor.kind_of_is hword
  · exact Cursor.kind_of_is hword.1

omit hr in
/-- A `for` loop over items or keys is read from the word before them on. -/
theorem ensures_forEach {isAwait : Bool} {init : Node} (hr : Recurs lexed before recur)
    (hinit : Reads lexed before init cursor) :
    Ensures (forEach recur before.front isAwait init) cursor (Reads lexed before) := by
  have h := hr.sound
  refine (ensures_advance_any hinit.1.sound).bind fun word c1 h1 => ?_
  have hleft := hinit.around h.to h1.1
  refine ensures_choice (fun _ => ensures_pure ⟨rfl, hleft⟩)
    (fun _ => ensures_assignmentTarget hleft) ?_
  rintro left _ ⟨rfl, htarget⟩
  refine (Reads.since htarget h.to).read (hr.reads (Reads.moves htarget)) fun right c2 s2 => ?_
  refine s2.expect ")" fun c3 s3 => ?_
  refine s3.read (hr.reads s3.moves) fun body c4 s4 => ?_
  exact ensures_ite (fun _ => s4.finish h rfl rfl) fun _ => s4.finish h rfl rfl

omit hr in
/-- An expression is read unless a sign stands in its place. -/
theorem ensures_expressionBefore {text : String} (hr : RecursHere lexed cursor recur) :
    Ensures (do if ← isAt text then return none else return some (← recur .expression)) cursor
      fun node? cursor' => Spread lexed cursor [.ofNode? node?] cursor' := by
  have h := hr.recurs.sound
  refine ensures_isAt_bind.2 (ensures_ite (fun _ => ensures_none h) fun _ => ?_)
  exact (hr.reads h.to).bind fun _ _ h1 => ensures_pure (h1.spread h)

omit hr in
/-- A `for` loop with semicolons is read from the first of them on. -/
theorem ensures_forSteps {init? : Option Node} (hr : Recurs lexed before recur)
    (hinit : Since lexed before [.ofNode? init?] cursor) :
    Ensures (forSteps recur before.front init?) cursor (Reads lexed before) := by
  refine hinit.expect ";" fun c1 s1 => ?_
  refine s1.readOption (ensures_expressionBefore (hr.here s1.moves)) fun test? c2 s2 => ?_
  refine s2.expect ";" fun c3 s3 => ?_
  refine s3.readOption (ensures_expressionBefore (hr.here s3.moves)) fun update? c4 s4 => ?_
  refine s4.expect ")" fun c5 s5 => ?_
  refine s5.read (hr.reads s5.moves) fun body c6 s6 => ?_
  exact s6.finish hr.sound rfl (by cases init? <;> cases test? <;> cases update? <;> rfl)

/-- A statement with `for` is read. -/
theorem ensures_forStatement : Ensures (forStatement recur) cursor (Reads lexed cursor) := by
  refine ensures_start_bind.2 ?_
  refine (ensures_skip_any hr.sound).bind fun _ c1 h1 => ?_
  refine (ensures_eat h1.sound "await").bind fun isAwait c2 h2 => ?_
  refine (ensures_expect h2.1.sound "(").bind fun _ c3 h3 => ?_
  have hto := h1.trans h2.1
  have s3 := (h3.after hto).since
  refine ensures_isAt_bind.2 (ensures_ite (fun _ => ?_) fun _ => ?_)
  · exact ensures_forSteps hr ⟨s3.1, s3.2.1, .hole s3.2.2⟩
  · refine (ensures_forInit (hr.here s3.moves)).bind fun init c4 h4 => ?_
    refine ensures_isAt_bind.2 (ensures_isAt_bind.2 (ensures_ite (fun _ => ?_) fun _ => ?_))
    · exact ensures_forEach hr (h4.around s3.1 h4.1.sound.to)
    · exact ensures_forSteps hr (h4.since s3.1)

/-- A word, an expression in parentheses and a statement are read as one statement. -/
theorem ensures_headed {kind : Kind} {fields : Node → Node → List (Field × Value)}
    (hkind : kind.isForm = true)
    (hvalues : ∀ head body, fieldValues kind (fields head body) = [.node head, .node body]) :
    Ensures (do
      skip
      let head ← parenthesized recur
      let body ← recur .statement
      finish kind cursor.front (fields head body)) cursor (Reads lexed cursor) := by
  refine (ensures_skip_any hr.sound).bind fun _ c1 h1 => ?_
  refine (ensures_parenthesized (hr.to h1)).bind fun head c2 h2 => ?_
  have s2 := h2.since h1
  refine s2.read (hr.reads s2.moves) fun body c3 s3 => ?_
  exact s3.finish hr.sound hkind (hvalues head body)

/-- A statement with `while` is read. -/
theorem ensures_whileStatement : Ensures (whileStatement recur) cursor (Reads lexed cursor) :=
  ensures_start_bind.2 (ensures_headed hr rfl fun _ _ => rfl)

/-- A statement with `with` is read. -/
theorem ensures_withStatement : Ensures (withStatement recur) cursor (Reads lexed cursor) :=
  ensures_start_bind.2 (ensures_headed hr rfl fun _ _ => rfl)

/-- A statement with `do` is read. -/
theorem ensures_doStatement (hkind : cursor.next.kind ≠ .endOfInput) :
    Ensures (doStatement recur) cursor (Reads lexed cursor) := by
  refine ensures_start_bind.2 ?_
  refine (ensures_skip hr.sound hkind).bind fun _ c1 h1 => ?_
  refine (hr.reads h1.1).bind fun body c2 h2 => ?_
  have s2 := h2.since h1.1.1
  refine s2.expect "while" fun c3 s3 => ?_
  refine s3.read (ensures_parenthesized (hr.to s3.1)) fun test c4 s4 => ?_
  refine s4.pass ((ensures_eat s4.sound ";").imp fun _ _ h5 => h5.1) fun _ c5 s5 => ?_
  exact s5.finish hr.sound rfl rfl

/-- A statement with `return` is read. -/
theorem ensures_returnStatement (hkind : cursor.next.kind ≠ .endOfInput) :
    Ensures (returnStatement recur) cursor (Reads lexed cursor) := by
  refine ensures_start_bind.2 ?_
  refine (ensures_skip hr.sound hkind).bind fun _ c1 h1 => ?_
  have hs := h1.1.1.sound
  refine h1.1.since.readOption ?_ fun argument? c2 s2 => ?_
  · refine ensures_statementEnds.bind ?_
    rintro ends _ rfl
    refine ensures_ite (fun _ => ensures_none hs) fun _ => ?_
    exact (hr.reads h1.1).bind fun _ _ h2 => ensures_pure (h2.spread hs)
  · refine s2.pass (ensures_semicolon s2.sound) fun _ c3 s3 => ?_
    exact s3.finish hr.sound rfl (by cases argument? <;> rfl)

/-- A statement with `throw` is read. -/
theorem ensures_throwStatement (hkind : cursor.next.kind ≠ .endOfInput) :
    Ensures (throwStatement recur) cursor (Reads lexed cursor) := by
  refine ensures_start_bind.2 ?_
  refine (ensures_skip hr.sound hkind).bind fun _ c1 h1 => ?_
  refine ensures_current_bind.2 (ensures_guard h1.1.1.sound fun _ => ?_)
  refine (hr.reads h1.1).bind fun argument c2 h2 => ?_
  refine (h2.since h1.1.1).pass (ensures_semicolon h2.1.sound) fun _ c3 s3 => ?_
  exact s3.finish hr.sound rfl rfl

/-- The part of a `try` statement that starts with `catch` is read, if it is there. -/
theorem ensures_catchClause? : Ensures (catchClause? recur) cursor fun node? cursor' =>
    Spread lexed cursor [.ofNode? node?] cursor' := by
  refine ensures_start_bind.2 ?_
  have h := hr.sound
  refine (ensures_eat h "catch").bind fun taken c1 h1 => ?_
  refine ensures_ite (fun htaken => ?_) fun _ => ?_
  · have s1 := Moves.since ⟨h1.1, h1.2.1 htaken⟩
    refine s1.readOption ?_ fun parameter? c2 s2 => ?_
    · refine (ensures_eat h1.1.sound "(").bind fun _ c2 h2 => ?_
      refine ensures_ite (fun _ => ?_) fun _ => ?_
      · refine (ensures_bindingTarget (hr.to (h1.1.trans h2.1))).bind fun parameter c3 h3 => ?_
        refine (ensures_expect h3.1.sound ")").bind fun _ c4 h4 => ensures_pure ?_
        exact (h3.around h2.1 h4.1).spread h1.1.sound
      · exact ensures_pure ⟨h2.1, .hole (.nil h2.1.last_le)⟩
    · refine s2.read (ensures_block (hr.to s2.1)) fun body c3 s3 => ?_
      refine Ensures.bind (s3.finish h rfl (by cases parameter? <;> rfl)) fun _ c4 h4 => ?_
      exact ensures_pure (h4.spread h)
  · exact ensures_pure ⟨h1.1, .hole (.nil h1.1.last_le)⟩

/-- A statement with `try` is read. -/
theorem ensures_tryStatement : Ensures (tryStatement recur) cursor (Reads lexed cursor) := by
  refine ensures_start_bind.2 ?_
  refine (ensures_skip_any hr.sound).bind fun _ c1 h1 => ?_
  refine (ensures_block (hr.to h1)).bind fun body c2 h2 => ?_
  have s2 := h2.since h1
  refine s2.readOption (ensures_catchClause? (hr.to s2.1)) fun handler? c3 s3 => ?_
  refine s3.readOption (ensures_eat_then s3.sound
    fun _ hc => ensures_block (hr.to (s3.1.trans hc.1)))
    fun finalizer? c4 s4 => ensures_guard s4.sound fun _ => ?_
  exact s4.finish hr.sound rfl (by cases handler? <;> cases finalizer? <;> rfl)

/-- One case of a `switch` statement is read. -/
theorem ensures_switchCase : Ensures (switchCase recur) cursor (Reads lexed cursor) := by
  refine ensures_start_bind.2 ?_
  have htest : Ensures (do
      if ← eat "case" then return some (← recur .expression)
      else
        expect "default"
        return none) cursor fun test? cursor' =>
        Since lexed cursor [.ofNode? test?] cursor' := by
    refine (ensures_eat hr.sound "case").bind fun _ c1 h1 =>
      ensures_ite (fun ht => ?_) fun _ => ?_
    · refine (hr.reads ⟨h1.1, h1.2.1 ht⟩).bind fun _ _ h2 => ensures_pure (h2.since h1.1)
    · refine (ensures_expect h1.1.sound "default").bind fun _ c2 h2 => ensures_pure ?_
      have s2 := (h2.after h1.1).since
      exact ⟨s2.1, s2.2.1, .hole s2.2.2⟩
  refine htest.bind fun test? c1 s1 => ?_
  refine s1.expect ":" fun c2 s2 => ?_
  refine s2.readAll (ensures_many_nodes (fun c3 h3 => ?_) s2.sound) fun consequent c3 s3 => ?_
  · refine ensures_isAt_bind.2 (ensures_isAt_bind.2 (ensures_isAt_bind.2 ?_))
    refine ensures_ite (fun _ => ensures_pure h3.1.to) fun _ => ?_
    refine ensures_isAtKind_bind.2 (ensures_guard h3.1 fun _ => ?_)
    exact (hr.reads (s2.moves.to h3)).bind fun _ _ h4 => ensures_pure (h4.round h3.1)
  · exact s3.finish hr.sound rfl
      (by cases test? <;> exact congrArg (_ :: ·) (List.append_nil _))

/-- A statement with `switch` is read. -/
theorem ensures_switchStatement :
    Ensures (switchStatement recur) cursor (Reads lexed cursor) := by
  refine ensures_start_bind.2 ?_
  refine (ensures_skip_any hr.sound).bind fun _ c1 h1 => ?_
  refine (ensures_parenthesized (hr.to h1)).bind fun discriminant c2 h2 => ?_
  have s2 := h2.since h1
  refine s2.expect _ fun c3 s3 => ?_
  refine s3.readAll (ensures_many_nodes (fun c4 h4 => ?_) s3.sound) fun cases c4 s4 => ?_
  · refine (ensures_eat h4.1 _).bind fun _ c5 h5 => ?_
    refine ensures_ite (fun _ => ensures_pure h5.1) fun _ => ?_
    refine (ensures_switchCase (hr.to (s3.1.trans (h4.trans h5.1)))).bind fun _ c6 h6 => ?_
    exact ensures_pure ((h6.around h5.1 h6.1.sound.to).round h4.1)
  · exact s4.finish hr.sound rfl (congrArg (_ :: ·) (List.append_nil _))

/-- A statement with a label is read. -/
theorem ensures_labeledStatement (hkind : cursor.next.kind ≠ .endOfInput) :
    Ensures (labeledStatement recur) cursor (Reads lexed cursor) := by
  refine ensures_start_bind.2 ?_
  refine (ensures_advance hr.sound hkind).bind fun word c1 h1 => ?_
  refine h1.1.identifier.bind fun label c2 h2 => ?_
  have s2 := h2.since hr.sound.to
  refine s2.expect ":" fun c3 s3 => ?_
  refine s3.read (hr.reads s3.moves) fun body c4 s4 => ?_
  exact s4.finish hr.sound rfl rfl

/-- A statement that starts with a word without a meaning of its own is read. -/
theorem ensures_plainStatement {word : String} (hkind : cursor.next.kind ≠ .endOfInput) :
    Ensures (plainStatement recur word) cursor (Reads lexed cursor) :=
  ensures_peek_bind.2 (ensures_ite (fun _ => ensures_labeledStatement hr hkind)
    fun _ => ensures_expressionStatement hr)

/-- A statement that starts with a word is read. -/
theorem ensures_wordStatement {word : String} (hkind : cursor.next.kind ≠ .endOfInput) :
    Ensures (wordStatement recur word) cursor (Reads lexed cursor) := by
  have hplain : ∀ {word : String},
      Ensures (plainStatement recur word) cursor (Reads lexed cursor) :=
    ensures_plainStatement hr hkind
  have hvariable := ensures_variableStatement hr hkind
  unfold wordStatement
  split
  case h_1 | h_2 => exact hvariable
  case h_3 =>
    refine ensures_letDeclares.bind ?_
    rintro declares _ rfl
    exact ensures_ite (fun _ => hvariable) fun _ => hplain
  case h_4 => exact ensures_function hr
  case h_5 =>
    refine ensures_functionFollows.bind ?_
    rintro follows _ rfl
    exact ensures_ite (fun _ => ensures_function hr) fun _ => hplain
  case h_6 => exact ensures_classDefinition hr
  case h_7 => exact ensures_ifStatement hr
  case h_8 => exact ensures_forStatement hr
  case h_9 => exact ensures_whileStatement hr
  case h_10 => exact ensures_doStatement hr hkind
  case h_11 => exact ensures_returnStatement hr hkind
  case h_12 => exact ensures_jumpStatement hr.sound hkind rfl rfl
  case h_13 => exact ensures_jumpStatement hr.sound hkind rfl rfl
  case h_14 => exact ensures_throwStatement hr hkind
  case h_15 => exact ensures_tryStatement hr
  case h_16 => exact ensures_switchStatement hr
  case h_17 => exact ensures_withStatement hr
  case h_18 => exact ensures_debuggerStatement hr.sound hkind
  case h_19 =>
    exact ensures_peek_bind.2 (ensures_ite (fun _ => hplain)
      fun _ => ensures_importDeclaration hr.sound hkind)
  case h_20 => exact ensures_exportDeclaration hr hkind
  case h_21 => exact hplain

/-- A statement is read. -/
theorem ensures_statement : Ensures (statement recur) cursor (Reads lexed cursor) := by
  refine ensures_current_bind.2 (ensures_ite (fun _ => ensures_block hr) fun _ => ?_)
  refine ensures_ite (fun hsemicolon => ?_) fun _ => ?_
  · have hkind : cursor.next.kind ≠ .endOfInput := by
      intro hkind
      simp [Token.isPunctuator, hkind] at hsemicolon
    exact (ensures_skip hr.sound hkind).bind fun _ _ htook => htook.leaf rfl rfl
  · refine ensures_ite (fun hname => ?_) fun _ => ensures_expressionStatement hr
    refine ensures_wordStatement hr ?_
    rw [beq_iff_eq.1 hname]
    decide

end

end DocTypes.TreeReader
