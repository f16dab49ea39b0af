import DocTypes.Proofs.Lexing.Positions
import DocTypes.Proofs.Reader.Statement

/-!
# Where a program's nodes stand

The productions together: with one level more than there are tokens, the reader for a goal reads a
node that is placed (`ensures_level`), as every call one level down comes after a token was taken. A
program that was read covers the whole source, and what stands below it is placed between the tokens
(`rooted_ofTokens`).
-/

namespace DocTypes

/-- A program that covers a source of some length, with placed statements arranged in it. -/
structure Rooted (tokens : List Token) (length : Nat) (root : Node) : Prop where
  kind : root.kind = .program
  span : root.span = some ⟨0, length⟩
  body : ∃ items, root.get .body = .list items
  /-- blocks are not kept in the tree -/
  unset : root.get? (.other "doc_blocks") = none
  arranged : Arranged ⟨0, length⟩ root.childValues
  below : ∀ child ∈ root.childNodes, Placed tokens child
  turns : InTurn .program (spansOf root.childValues)

namespace TreeReader

variable {lexed : Lexed} {cursor : Cursor}

/-- The reader for a goal reads, if the one below it does. -/
theorem ensures_step {recur : Goal → TreeReader Node} {goal : Goal}
    (hr : Recurs lexed cursor recur) : Ensures (step recur goal) cursor (Reads lexed cursor) := by
  cases goal with
  | statement => exact ensures_statement hr
  | expression => exact ensures_expression hr
  | assignment => exact ensures_assignment hr
  | binary floor => exact ensures_binary hr
  | unary => exact ensures_unary hr
  | leftHandSide => exact ensures_leftHandSide hr
  | construction => exact ensures_construction hr
  | bindingTarget => exact ensures_bindingTarget hr
  | bindingElement => exact ensures_bindingElement hr

/-- The reader with more levels than there are tokens reads. -/
theorem ensures_level : ∀ {levels : Nat} {goal : Goal} {cursor : Cursor}, cursor.Sound lexed →
    cursor.left < levels → Ensures (level levels goal) cursor (Reads lexed cursor)
  | 0, _, _, _, hlevels => absurd hlevels (Nat.not_lt_zero _)
  | _ + 1, _, _, h, hlevels =>
    ensures_step ⟨h, fun hmoves => ensures_level hmoves.1.1
      (Nat.lt_of_lt_of_le (hmoves.1.left_lt h hmoves.2) (Nat.le_of_lt_succ hlevels))⟩

/-- The statements of a program are read up to the last token. -/
theorem ensures_program_body {levels : Nat} (h : cursor.Sound lexed)
    (hlevels : cursor.left < levels) :
    Ensures (many do
      if ← isAtKind .endOfInput then return none
      return some (← level levels .statement, true)) cursor fun body cursor' =>
        Spread lexed cursor (body.map .node) cursor' ∧ cursor'.pending = [] := by
  simp only [List.map_eq_flatMap]
  refine ensures_get_bind.2 (ensures_rounds (fun node => [.node node]) (Spread lexed)
    (fun cursor values cursor' => Spread lexed cursor values cursor' ∧ cursor'.pending = [])
    (fun c1 h1 => ?_) (fun hitem hitems => ⟨hitem.append hitems.1, hitems.2⟩) _ cursor h.to
    (Nat.lt_succ_self _))
  · refine ensures_isAtKind_bind.2 (ensures_ite (fun hkind => ?_) fun _ => ?_)
    · refine ensures_pure ⟨⟨h1.1.to, .nil (Nat.le_refl _)⟩, ?_⟩
      cases hpending : c1.pending with
      | nil => rfl
      | cons token rest =>
        rw [Cursor.next_eq_head hpending] at hkind
        have hmem := h1.1.2.1 token (by rw [hpending]; exact .head _)
        exact absurd (beq_iff_eq.1 hkind) (h1.1.ordered.kinds token hmem)
    · have hleft : c1.left < levels := Nat.lt_of_le_of_lt h1.2.2.2.length_le hlevels
      refine (ensures_level h1.1 hleft).bind fun node c2 h2 => ensures_pure ?_
      exact ⟨h2.moves, h2.spread h1.1, nofun⟩

/-- A program is read with its statements in a row, up to the last token. -/
theorem ensures_program {levels : Nat} (h : cursor.Sound lexed) (hlevels : cursor.left < levels)
    (hend : lexed.endToken.span.start ≤ cursor.source.length) :
    Ensures (program levels) cursor fun root cursor' =>
      (cursor'.source = cursor.source → Rooted lexed.tokens cursor.source.length root) ∧
        cursor'.pending = [] := by
  refine (ensures_program_body h hlevels).bind fun body c1 ⟨h1, hpending⟩ => ?_
  refine ensures_get_bind.2 (ensures_make.imp ?_)
  rintro _ _ ⟨rfl, rfl⟩
  refine ⟨fun hsource => ?_, hpending⟩
  have hlast : c1.lastEnd ≤ cursor.source.length := by
    have hrun := h1.1.sound.2.2.2.1
    have := TokenRun.le (fun token ht => h.ordered.solid token (h1.1.sound.2.1 token ht)) hrun
    omega
  have hrow : Row lexed.tokens 0 (body.map .node) cursor.source.length :=
    (h1.2.mono_low (Nat.zero_le _)).mono_high hlast
  have hvalues : ∀ id span, Node.childValues (.mk .program id span none none
      [(.body, nodes body), (.sourceType, .text "module")]) = body.map .node :=
    fun _ _ => List.append_nil _
  refine ⟨rfl, by rw [← hsource]; rfl, ⟨_, rfl⟩, rfl, ?_, ?_, ?_⟩
  · rw [hvalues]
    exact hrow.arranged
  · rw [Node.childNodes, hvalues]
    exact hrow.placed
  · rw [hvalues]
    exact hrow.inTurn _

end TreeReader

/-- Behind the first of some tokens in order the others are in order. -/
theorem TokenRun.drop : ∀ {taken pending : List Token} {low high : Nat},
    TokenRun low (taken ++ pending) high →
      TokenRun ((taken.map (·.span.stop)).getLastD low) pending high
  | [], _, _, _, h => h
  | _ :: _, _, _, _, h => by
    rw [List.map_cons, List.getLastD_cons]
    exact h.2.drop

section
variable {source : List Char} {lexed : Lexed} (h : lex source = .ok lexed)
include h

/-- A cursor between the tokens of a source is sound. -/
theorem sound_of_lex {taken pending : List Token} (htokens : taken ++ pending = lexed.tokens)
    (scope : Scope) (fresh : Nat) :
    Cursor.Sound lexed ⟨source, pending, lexed.endToken,
      (taken.map (·.span.stop)).getLastD 0, scope,
      fresh⟩ := by
  obtain ⟨pieces, hl, hs⟩ := lexesSource_of_lex h
  have hrun := (hs.ordered hl).run
  rw [← htokens] at hrun
  refine ⟨rfl, fun token ht => ?_, ?_, hrun.drop, hs.ordered hl, (located_of_lex h).1⟩
  · rw [← htokens]
    exact List.mem_append_right _ ht
  · rcases taken.eq_nil_or_concat with rfl | ⟨front, last, rfl⟩
    · exact .inl rfl
    · exact .inr ⟨last, by simp [← htokens], by simp⟩

/-- The program that is read from the tokens of a source covers it, with its nodes between the
tokens, of which none is left. -/
theorem TreeReader.ensures_program_of_lex : Ensures (program (lexed.tokens.length + 1))
    { source, pending := lexed.tokens, endToken := lexed.endToken }
      fun root last => Rooted lexed.tokens source.length root ∧ last.pending = [] := by
  obtain ⟨pieces, hl, hs⟩ := lexesSource_of_lex h
  have hend : lexed.endToken.span.start ≤ source.length :=
    Nat.le_of_eq (congrArg (fun facts => facts.span.start) hs.endToken)
  have hprogram :=
    ensures_program (sound_of_lex h (List.nil_append _) {} 0) (Nat.lt_succ_self _) hend
  exact (hprogram.and hprogram.grants).imp fun root last ⟨⟨hrooted, hpending⟩, hsource, _⟩ =>
    ⟨hrooted hsource, hpending⟩

/-- The tree that is read from the tokens of a source is rooted. -/
theorem rooted_ofTokens {root : Node} {fresh : Nat}
    (hroot : Node.ofTokens source lexed = .ok (root, fresh)) :
    Rooted lexed.tokens source.length root := by
  obtain ⟨⟨root', cursor⟩, hrun, heq⟩ := bind_eq_ok.1 hroot
  cases heq
  exact ((TreeReader.ensures_program_of_lex h).grants root cursor hrun).2.1

end

end DocTypes
