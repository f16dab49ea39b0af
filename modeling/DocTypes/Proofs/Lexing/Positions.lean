import DocTypes.Proofs.Lexing.Coverage

/-!
# Lines, columns and line breaks

The lexer counts lines and remembers where the current one starts, and it remembers whether a line
break was met since the last token. Both agree with what the source says: the counts are those of
`positionAt` (`located_of_lex`), and a token is marked as standing after a break if there is one
between it and the token before it (`Lexed.Shows.afterBreak_iff`). An error is reported at an offset
of the source (`liesIn_of_lex_error`).
-/

namespace DocTypes

open List

/-- The last line of a text goes on with the text behind it up to a line break. -/
theorem lastLineLength_append (front taken : List Char) :
    lastLineLength (front ++ taken) =
      if taken.contains '\n' then lastLineLength taken else lastLineLength front +
      taken.length := by
  rw [lastLineLength, reverse_append, takeWhile_append]
  split
  case isTrue hall =>
    have hnone : taken.contains '\n' = false := by
      have hall' := ( takeWhile_prefix (· != '\n')).eq_of_length hall
      rw [takeWhile_eq_self_iff] at hall'
      simpa using hall' '\n'
    rw [hnone, if_neg Bool.false_ne_true, length_append, length_reverse, Nat.add_comm]
    rfl
  case isFalse hpart =>
    rw [if_pos]
    · rfl
    · refine Decidable.byContradiction fun hnone => hpart ?_
      rw [takeWhile_eq_self_iff.2]
      intro c hc
      simp only [bne_iff_ne, ne_eq]
      rintro rfl
      exact hnone (by simpa using hc)

/-- The last line is a part of the text. -/
theorem lastLineLength_le (text : List Char) : lastLineLength text ≤ text.length := by
  have hle := ( takeWhile_prefix (p := (· != '\n')) (l := text.reverse)).length_le
  rwa [length_reverse] at hle

/-- A lexer somewhere in a source has counted right, for itself and for what it has taken. -/
structure Lexer.Counted (source : List Char) (lexer : Lexer) : Prop where
  rest : lexer.rest = source.drop lexer.offset
  line : lexer.line = (source.take lexer.offset).count '\n' + 1
  lineStart : lexer.lineStart + lastLineLength (source.take lexer.offset) = lexer.offset
  tokens : ∀ token ∈ lexer.tokens, token.position = positionAt source token.span.start
  comments : ∀ comment ∈ lexer.comments,
    comment.line = (positionAt source comment.span.start).line

section
variable {source : List Char} {lexer final : Lexer} {piece : Piece} {rest : List Char}
  {braces : List Bool}

/-- A token at the lexer's place has its position. -/
theorem Lexer.Counted.tokenHere (h : lexer.Counted source) (kind : TokenKind) (text : List Char) :
    (lexer.tokenHere kind text).position = positionAt source lexer.offset := by
  have hstart := h.lineStart
  rw [Token.position, positionAt, Position.mk.injEq]
  refine ⟨h.line, ?_⟩
  simp only [Lexer.tokenHere]
  omega

/-- A lexer that has passed over a piece is where the piece ends. -/
theorem Lexer.after_eq (lexer : Lexer) (piece : Piece) (rest : List Char) (braces : List Bool) :
    ∃ tokens comments breakPending braces', lexer.after piece rest braces =
      { lexer.pass piece.chars rest with tokens, comments, breakPending, braces := braces' } := by
  cases piece <;> exact ⟨_, _, _, _, rfl⟩

/-- One piece more is counted right. -/
theorem Lexer.Counted.after (h : lexer.Counted source)
    (hchars : piece.chars ++ rest = lexer.rest) :
    (lexer.after piece rest braces).Counted source := by
  have htake : source.take (lexer.offset + piece.chars.length) =
      source.take lexer.offset ++ piece.chars := by
    rw [take_add, ← h.rest, ← hchars, take_left]
  have hstart := h.lineStart
  obtain ⟨tokens, comments, breakPending, braces', hafter⟩ := lexer.after_eq piece rest braces
  refine ⟨?_, ?_, ?_, ?_, ?_⟩
  · rw [Lexer.rest_after, Lexer.offset_after, ← drop_drop, ← h.rest, ← hchars, drop_left]
  · rw [Lexer.offset_after, htake, count_append, hafter]
    simp only [Lexer.pass, h.line]
    omega
  · rw [Lexer.offset_after, htake, lastLineLength_append, hafter]
    have hle := lastLineLength_le piece.chars
    simp only [Lexer.pass]
    split <;> omega
  · cases piece with
    | token kind text => exact forall_mem_cons.2 ⟨h.tokenHere kind text, h.tokens⟩
    | _ => exact h.tokens
  · cases piece with
    | comment kind text => exact forall_mem_cons.2 ⟨h.line, h.comments⟩
    | _ => exact h.comments

/-- The lexer's run counts right. -/
theorem Lexer.Counted.run : ∀ {steps : Nat} {lexer final : Lexer}, lexer.Counted source →
    Lexer.run source steps lexer = .ok final → final.Counted source
  | 0, _, _, h, hrun => by
    cases hrun
    exact h
  | steps + 1, lexer, final, h, hrun => by
    unfold Lexer.run at hrun
    split at hrun
    case h_1 =>
      cases hrun
      exact h
    case h_2 c cs hrest =>
      split at hrun
      case h_1 => cases hrun
      case h_2 next hstep =>
        obtain ⟨piece, rest, braces, hpiece, rfl⟩ := pieceAt_of_step hrest hstep
        exact (h.after (hpiece.chars_append.trans hrest.symm)).run hrun

/-- The lexer starts with right counts. -/
theorem Lexer.counted_start (source : List Char) : (Lexer.start source).Counted source := by
  have hfirst : Lexer.Counted source { rest := source } :=
    ⟨rfl, rfl, rfl, forall_mem_nil _, forall_mem_nil _⟩
  by_cases hstart : ['#', '!'] <+: source
  · obtain ⟨cs, rfl⟩ := hstart
    exact @Lexer.Counted.after _ _ _ _ [] hfirst (hashbang_append cs)
  · rw [start_plain hstart]
    exact hfirst

/-- A step fails at an offset of the source. -/
theorem liesIn_of_step_error {c : Char} {cs : List Char} {error : LexError}
    (h : lexer.step source c cs = .error error) : error.position.LiesIn source := by
  have hfail : ∀ {lexer : Lexer} {cause : LexCause} {ahead : Nat},
      (lexer.fail source cause ahead : Except LexError Lexer) = .error error →
        error.position.LiesIn source := by
    intro lexer cause ahead h
    cases h
    exact liesIn_positionAt _ _
  have htemplate : ∀ {lexer : Lexer}, lexer.takeTemplate source c cs = .error error →
      error.position.LiesIn source := by
    intro lexer h
    rw [Lexer.takeTemplate] at h
    split at h
    · exact hfail h
    · cases h
  unfold Lexer.step Lexer.takeToken Lexer.takeNumber Lexer.takePunctuator at h
  repeat' split at h
  all_goals first
    | exact hfail h
    | exact htemplate h
    | cases h

/-- The lexer fails at an offset of the source. -/
theorem liesIn_of_lex_error {error : LexError} (h : lex source = .error error) :
    error.position.LiesIn source := by
  have hrun : ∀ {steps : Nat} {lexer : Lexer}, Lexer.run source steps lexer = .error error →
      error.position.LiesIn source := by
    intro steps
    induction steps with
    | zero => nofun
    | succ steps ih =>
      intro lexer h
      unfold Lexer.run at h
      split at h
      · cases h
      · split at h
        case h_1 hstep =>
          cases h
          exact liesIn_of_step_error hstep
        case h_2 => exact ih h
  unfold lex at h
  split at h
  case h_1 hfails =>
    cases h
    exact hrun hfails
  case h_2 => cases h

/-- The tokens of a source have the positions where they start, and its comments the lines. -/
theorem located_of_lex {lexed : Lexed} (h : lex source = .ok lexed) :
    lexed.Located source ∧ ∀ comment ∈ lexed.comments,
      comment.line = (positionAt source comment.span.start).line := by
  unfold lex at h
  split at h
  case h_1 => cases h
  case h_2 final hrun =>
    cases h
    have hcounted := (Lexer.counted_start source).run hrun
    refine ⟨fun token htoken => ?_, fun comment hcomment => ?_⟩
    · rcases mem_append.1 htoken with htoken | htoken
      · exact hcounted.tokens token (mem_reverse.1 htoken)
      · rw [mem_singleton.1 htoken]
        exact hcounted.tokenHere _ _
    · exact hcounted.comments comment (mem_reverse.1 hcomment)

end

/-- A line break at an offset of a source: a new line, or a separator outside the comments. -/
def Lexed.BreaksAt (lexed : Lexed) (source : List Char) (offset : Nat) : Prop :=
  source[offset]? = some '\n' ∨
    (source[offset]? = some '\u2028' ∨ source[offset]? = some '\u2029') ∧
      ∀ comment ∈ lexed.comments, ¬comment.span.Holds offset

section
variable {source : List Char} {pieces : List Piece} {lexed : Lexed}

/-- Between tokens a piece breaks the line if there is a line break in it. -/
theorem Lexed.Shows.breaks_iff (hl : LexesSource source pieces) (h : lexed.Shows source pieces)
    {piece : Piece} {span : Span} (hstands : StandsAt 0 pieces piece span)
    (hpiece : ∀ kind word, piece ≠ .token kind word) :
    piece.breaks = true ↔ ∃ i, span.Holds i ∧ lexed.BreaksAt source i := by
  have htext : span.text source = piece.chars := by
    rw [← hl.spell_eq]
    exact hstands.text_eq [] rfl
  have hstop := hstands.stop_eq
  have hmem : ∀ {i : Nat} {c : Char}, span.Holds i → source[i]? = some c → c ∈ piece.chars := by
    intro i c hi hc
    rw [← htext]
    exact mem_slice hc hi.1 hi.2
  have hplace : ∀ {c : Char}, c ∈ piece.chars → ∃ i, span.Holds i ∧ source[i]? = some c := by
    intro c hc
    obtain ⟨k, hk, rfl⟩ := mem_iff_getElem.1 hc
    refine ⟨span.start + k, ⟨by omega, by omega⟩, ?_⟩
    rw [getElem?_of_text_eq htext hk, getElem?_eq_getElem hk]
  cases piece with
  | token kind word => exact absurd rfl (hpiece kind word)
  | blank c =>
    refine ⟨fun hbreak => ?_, ?_⟩
    · obtain ⟨i, hi, hc⟩ := hplace (mem_singleton_self c)
      have hout : ∀ comment ∈ lexed.comments, ¬comment.span.Holds i := by
        rintro comment hcomment ⟨hle, hlt⟩
        rcases hstands.apart (h.comment hcomment) with ⟨heq, -⟩ | hapart
        · cases heq
        · have := hi.1
          have := hi.2
          omega
      refine ⟨i, hi, ?_⟩
      simp only [Piece.breaks, isSeparator, Bool.or_eq_true, beq_iff_eq] at hbreak
      rcases hbreak with rfl | rfl | rfl
      · exact .inl hc
      · exact .inr ⟨.inl hc, hout⟩
      · exact .inr ⟨.inr hc, hout⟩
    · rintro ⟨i, hi, hnew | ⟨hseparator | hseparator, -⟩⟩
      all_goals
        rw [← mem_singleton.1 (hmem hi ‹_›)]
        rfl
  | comment kind text =>
    refine ⟨fun hbreak => ?_, ?_⟩
    · have hnew : '\n' ∈ text := by simpa [Piece.breaks] using hbreak
      obtain ⟨i, hi, hc⟩ := hplace (mem_append_left _ (mem_append_right _ hnew))
      exact ⟨i, hi, .inl hc⟩
    · rintro ⟨i, hi, hnew | ⟨-, hout⟩⟩
      · have hnew := hmem hi hnew
        cases kind <;> simpa [Piece.chars, Piece.breaks, CommentKind.opening,
          CommentKind.closing] using hnew
      · obtain ⟨facts, hfacts, hspan⟩ := hstands.mem_commentsFrom
        rw [← h.comments] at hfacts
        obtain ⟨comment, hcomment, rfl⟩ := mem_map.1 hfacts
        rw [← hspan] at hi
        exact absurd hi (hout comment hcomment)

/-- Tokens that are read off pieces stand after a break if there is one since the token before. -/
theorem afterBreak_of_facts {P : Nat → Prop} : ∀ {pieces : List Piece} {offset last : Nat}
    {afterBreak : Bool} {tokens : List Token} {endToken : Token},
    tokens.map Token.facts = tokensFrom offset afterBreak pieces →
    endToken.span.start = offset + (spell pieces).length →
    endToken.afterBreak = breakAfter afterBreak pieces →
    (∀ {piece span}, StandsAt offset pieces piece span → (∀ kind word, piece ≠ .token kind word) →
      (piece.breaks = true ↔ ∃ i, span.Holds i ∧ P i)) →
    last ≤ offset → (afterBreak = true ↔ ∃ i, Span.Holds ⟨last, offset⟩ i ∧ P i) →
    ∀ {previous token}, (previous, token) ∈
      (last :: tokens.map (·.span.stop)).zip (tokens ++ [endToken]) →
        (token.afterBreak = true ↔ ∃ i, Span.Holds ⟨previous, token.span.start⟩ i ∧ P i) := by
  intro pieces
  induction pieces with
  | nil =>
    intro offset last afterBreak tokens endToken htokens hstart hend _ _ hbreak previous token hmem
    rw [map_eq_nil_iff.1 htokens] at hmem
    obtain ⟨rfl, rfl⟩ := Prod.mk.inj (mem_singleton.1 hmem)
    rw [hend, hstart]
    exact hbreak
  | cons first rest ih =>
    intro offset last afterBreak tokens endToken htokens hstart hend hpieces hle hbreak previous
      token hmem
    rw [spell_cons, length_append, ← Nat.add_assoc] at hstart
    have hlater : ∀ {piece span}, StandsAt (offset + first.chars.length) rest piece span →
        (∀ kind word, piece ≠ .token kind word) →
        (piece.breaks = true ↔ ∃ i, span.Holds i ∧ P i) :=
      fun hstands => hpieces (.later hstands)
    -- a piece that is no token only moves the place up to which breaks were looked for
    have hpass : (∀ kind word, first ≠ .token kind word) →
        ((afterBreak || first.breaks) = true ↔
          ∃ i, Span.Holds ⟨last, offset + first.chars.length⟩ i ∧ P i) := by
      intro hfirst
      rw [Bool.or_eq_true, hbreak, hpieces .here hfirst]
      constructor
      · rintro (⟨i, hi, hp⟩ | ⟨i, hi, hp⟩)
        · exact ⟨i, ⟨hi.1, Nat.lt_of_lt_of_le hi.2 (Nat.le_add_right _ _)⟩, hp⟩
        · exact ⟨i, ⟨Nat.le_trans hle hi.1, hi.2⟩, hp⟩
      · rintro ⟨i, hi, hp⟩
        rcases Nat.lt_or_ge i offset with hlt | hge
        · exact .inl ⟨i, ⟨hi.1, hlt⟩, hp⟩
        · exact .inr ⟨i, ⟨hge, hi.2⟩, hp⟩
    cases first with
    | token kind word =>
      obtain ⟨head, tail, rfl, hhead, htail⟩ := map_eq_cons_iff.1 htokens
      have hspan : head.span = ⟨offset, offset + word.length⟩ := congrArg TokenFacts.span hhead
      rcases mem_cons.1 hmem with heq | hmem
      · obtain ⟨rfl, rfl⟩ := Prod.mk.inj heq
        rw [hspan, show token.afterBreak = afterBreak from congrArg TokenFacts.afterBreak hhead]
        exact hbreak
      · rw [map_cons, hspan] at hmem
        refine ih htail hstart hend hlater (Nat.le_refl _) ⟨nofun, ?_⟩ hmem
        rintro ⟨i, hi, -⟩
        exact absurd (Nat.lt_of_le_of_lt hi.1 hi.2) (Nat.lt_irrefl _)
    | blank c | comment kind text =>
      exact ih htokens hstart hend hlater (Nat.le_trans hle (Nat.le_add_right _ _)) (hpass nofun)
        hmem

/-- A token stands after a break if there is one between the token before it and its start. -/
theorem Lexed.Shows.afterBreak_iff (hl : LexesSource source pieces) (h : lexed.Shows source pieces)
    {previous : Nat} {token : Token} (hmem : (previous, token) ∈
      (0 :: lexed.tokens.map (·.span.stop)).zip lexed.allTokens) :
    token.afterBreak = true ↔
      ∃ i, Span.Holds ⟨previous, token.span.start⟩ i ∧ lexed.BreaksAt source i := by
  refine afterBreak_of_facts h.tokens ?_ (congrArg TokenFacts.afterBreak h.endToken)
    (h.breaks_iff hl) (Nat.le_refl _) ⟨nofun, ?_⟩ hmem
  · rw [hl.spell_eq, Nat.zero_add]
    exact congrArg (fun facts => facts.span.start) h.endToken
  · rintro ⟨i, hi, -⟩
    exact absurd hi.2 (Nat.not_lt_zero _)

end

end DocTypes
