import DocTypes.Proofs.Program.Read

/-!
# What reading a source comes to

The tokens of a source are read up to the last one, or there is a fault in them: from no place on
does the reader take a token after the last or go on without taking one (`program_progresses`).
Tokens, comments and faults have the positions that one gets by counting (`read_positions`).
-/

namespace DocTypes

/-- A fault in the source is neither of the others. -/
theorem ReadFault.LiesIn.ne {source : List Char} {fault : ReadFault} (h : fault.LiesIn source) :
    fault ≠ .pastEnd ∧ fault ≠ .stalled := by
  constructor <;> rintro rfl <;> exact h

namespace TreeReader

/-- The reader, where less than `limit` tokens are pending. -/
def below (limit : Nat) (recur : Goal → TreeReader Node) (goal : Goal) : TreeReader Node := do
  if (← get).left < limit then recur goal else throw .stalled

/-- The tokens of a source are read up to the last one, or there is a fault in them. From each place
in the tokens on there is no other fault for a reader that goes down only where a token was taken.
-/
theorem program_progresses {source : List Char} {lexed : Lexed} (h : lex source = .ok lexed) :
    (match (program (lexed.tokens.length + 1)).run
        { source, pending := lexed.tokens, endToken := lexed.endToken } with
      | .ok (root, last) => root.kind = .program ∧ last.pending = []
      | .error fault => fault ≠ .pastEnd ∧ fault ≠ .stalled) ∧
    ∀ taken pending, taken ++ pending = lexed.tokens → ∀ goal scope fresh fault,
      (step (below pending.length (level pending.length)) goal).run ⟨source, pending,
        lexed.endToken, (taken.map (·.span.stop)).getLastD 0, scope, fresh⟩ = .error fault →
        fault ≠ .pastEnd ∧ fault ≠ .stalled := by
  constructor
  · have hprogram := ensures_program_of_lex h
    rw [Ensures] at hprogram
    split at hprogram
    case h_1 root last hrun =>
      rw [StateT.run, hrun]
      exact ⟨hprogram.2.1.kind, hprogram.2.2⟩
    case h_2 fault hrun =>
      rw [StateT.run, hrun]
      exact hprogram.ne
  · intro taken pending htokens goal scope fresh fault hrun
    have hsound := sound_of_lex h htokens scope fresh
    have hrecurs : Recurs lexed _ (below pending.length (level pending.length)) :=
      ⟨hsound, fun {goal after} hmoves => by
        have hlt : after.left < pending.length := hmoves.1.left_lt hsound hmoves.2
        refine ensures_get_bind.2 ?_
        rw [if_pos hlt]
        exact ensures_level hmoves.1.1 hlt⟩
    have hstep := @ensures_step _ _ _ goal hrecurs
    rw [Ensures, show step _ _ _ = _ from hrun] at hstep
    exact hstep.ne

/-- A call is read up to its last token. -/
theorem program_progresses_call : ∃ lexed root last, lex "f(x);".toList = .ok lexed ∧
    (program (lexed.tokens.length + 1)).run
      { source := "f(x);".toList, pending := lexed.tokens, endToken := lexed.endToken } =
        .ok (root, last) ∧ root.kind = .program ∧ last.pending = [] := by
  have hok : ((lex "f(x);".toList).toOption.any fun lexed =>
    ((program (lexed.tokens.length + 1)).run
      { source := "f(x);".toList, pending := lexed.tokens,
        endToken := lexed.endToken }).toOption.any fun _ => true) = true := by
    decide +kernel
  obtain ⟨lexed, hlex, hany⟩ := exists_eq_ok_of_any hok
  obtain ⟨⟨root, last⟩, hrun, -⟩ := exists_eq_ok_of_any hany
  have hlast := (program_progresses hlex).1
  rw [hrun] at hlast
  exact ⟨lexed, root, last, hlex, hrun, hlast⟩

end TreeReader

/-- A source is refused by the lexer, by the reader on its tokens, or because of a type. -/
theorem Program.fault_of_read {source : List Char} {fault : ProgramFault}
    (h : Program.read source = .error fault) :
    match fault with
      | .lexing error => lex source = .error error
      | .reading fault => ∃ lexed, lex source = .ok lexed ∧
          Node.ofTokens source lexed = .error fault
      | .typing _ => True := by
  rcases of_bind_eq_error h with h | ⟨lexed, hlexed, h⟩
  · obtain ⟨error, herror, rfl⟩ := of_mapError_eq_error h
    exact herror
  rcases of_bind_eq_error h with h | ⟨made, -, h⟩
  · obtain ⟨fault, hfault, rfl⟩ := of_mapError_eq_error h
    exact ⟨lexed, mapError_eq_ok.1 hlexed, hfault⟩
  rcases of_bind_eq_error h with h | ⟨docs, -, h⟩
  · obtain ⟨error, -, rfl⟩ := of_mapError_eq_error h
    trivial
  · cases h

/-- Tokens and comments have the positions that one gets by counting, and a token stands after a
break if there is one since the token before it. A source that is refused is so at the position of
one of its offsets. -/
theorem Program.read_positions (source : List Char) :
    (∀ lexed, lex source = .ok lexed →
      (∀ token ∈ lexed.allTokens, token.position = positionAt source token.span.start) ∧
      (∀ comment ∈ lexed.comments,
        comment.line = (positionAt source comment.span.start).line) ∧
      ∀ previous token,
        (previous, token) ∈ (0 :: lexed.tokens.map (·.span.stop)).zip lexed.allTokens →
        (token.afterBreak = true ↔
          ∃ i, Span.Holds ⟨previous, token.span.start⟩ i ∧ lexed.BreaksAt source i)) ∧
    (∀ error, Program.read source = .error (.lexing error) → error.position.LiesIn source) ∧
    ∀ cause position, Program.read source = .error (.reading (.grammar cause position)) →
      position.LiesIn source := by
  refine ⟨fun lexed h => ?_, fun error h => ?_, fun cause position h => ?_⟩
  · obtain ⟨pieces, hl, hs⟩ := lexesSource_of_lex h
    exact ⟨(located_of_lex h).1, (located_of_lex h).2, fun _ _ hmem => hs.afterBreak_iff hl hmem⟩
  · exact liesIn_of_lex_error (fault_of_read h)
  · obtain ⟨lexed, hlex, htokens⟩ := fault_of_read h
    rcases of_bind_eq_error htokens with hrun | ⟨_, -, hmade⟩
    · have hprogram := TreeReader.ensures_program_of_lex hlex
      rw [TreeReader.Ensures, show TreeReader.program _ _ = _ from hrun] at hprogram
      exact hprogram
    · cases hmade

end DocTypes
