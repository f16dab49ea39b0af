import DocTypes.Proofs.Lexing.Tiling

/-!
# Tokens and comments cover the source

The spans of the tokens and comments of a source, merged by where they start, follow one another
without overlap. They cover every character that is no white space, and each holds what its token or
comment says. The main statement is `lex_tiles`.
-/

namespace DocTypes

open List

/-- The spans of the tokens and comments, in the order of their starts. -/
def Lexed.spans (lexed : Lexed) : List Span :=
  (lexed.tokens.map Token.span ++ lexed.comments.map Comment.span).mergeSort
    fun a b => a.start ≤ b.start

/-- Does a span hold an offset? -/
def Span.Holds (span : Span) (offset : Nat) : Prop :=
  span.start ≤ offset ∧ offset < span.stop

/-- The tokens and comments tile a source, up to the white space between them. -/
structure Lexed.Tiles (lexed : Lexed) (source : List Char) : Prop where
  /-- In the order of their starts, each span ends before the next starts. -/
  ordered : lexed.spans.Pairwise fun a b => a.stop ≤ b.start
  /-- No span is empty, and none reaches past the source. -/
  proper : ∀ span ∈ lexed.spans, span.start < span.stop ∧ span.stop ≤ source.length
  /-- A token says what stands at its span. -/
  token_text : ∀ token ∈ lexed.tokens, token.text.toList = token.span.text source
  /-- A comment says what stands between its marks. -/
  comment_text : ∀ comment ∈ lexed.comments,
    comment.kind.opening ++ comment.text ++ comment.kind.closing = comment.span.text source
  /-- What no span holds parts tokens. -/
  outside : ∀ offset c, source[offset]? = some c → (∀ span ∈ lexed.spans, ¬span.Holds offset) →
    partsTokens c = true
  /-- The last token, and no other, is the end of the input. -/
  last : lexed.allTokens.getLast? = some lexed.endToken ∧
    lexed.allTokens.filter (·.kind == .endOfInput) = [lexed.endToken]
  /-- The end of the input is where the source ends. -/
  end_span : lexed.endToken.span = ⟨source.length, source.length⟩

section
variable {offset : Nat} {pieces : List Piece} {piece : Piece} {span : Span} {braces : List Bool}
  {slashOpens : Bool} {source text : List Char}

/-- Tokens that are read off pieces stand in order. -/
theorem pairwise_tokensFrom (offset : Nat) (afterBreak : Bool) (pieces : List Piece) :
    (tokensFrom offset afterBreak pieces).Pairwise fun a b => a.span.stop ≤ b.span.start := by
  induction pieces generalizing offset afterBreak with
  | nil => exact .nil
  | cons first rest ih =>
    cases first with
    | token kind word =>
      refine .cons (fun facts hmem => ?_) (ih _ _)
      obtain ⟨word', hstands, _⟩ := standsAt_of_mem_tokensFrom hmem
      exact hstands.le_start
    | blank c | comment kind text => exact ih _ _

/-- A token among pieces is read off. -/
theorem StandsAt.mem_tokensFrom {kind : TokenKind} {word : List Char}
    (h : StandsAt offset pieces (.token kind word) span) (afterBreak : Bool) :
    ∃ facts ∈ tokensFrom offset afterBreak pieces, facts.span = span := by
  generalize hpiece : Piece.token kind word = piece at h
  induction h generalizing afterBreak with
  | here =>
    subst hpiece
    exact ⟨_, .head _, rfl⟩
  | @later offset first piece rest span below ih =>
    cases first with
    | token kind' word' =>
      obtain ⟨facts, hmem, hspan⟩ := ih false hpiece
      exact ⟨facts, .tail _ hmem, hspan⟩
    | blank c | comment kind' text => exact ih _ hpiece

/-- A comment among pieces is read off. -/
theorem StandsAt.mem_commentsFrom {kind : CommentKind} {text : List Char}
    (h : StandsAt offset pieces (.comment kind text) span) :
    ∃ facts ∈ commentsFrom offset pieces, facts.span = span := by
  generalize hpiece : Piece.comment kind text = piece at h
  induction h with
  | here =>
    subst hpiece
    exact ⟨_, .head _, rfl⟩
  | @later offset first piece rest span below ih =>
    obtain ⟨facts, hmem, hspan⟩ := ih hpiece
    cases first with
    | comment kind' text' => exact ⟨facts, .tail _ hmem, hspan⟩
    | blank c | token kind' word => exact ⟨facts, hmem, hspan⟩

/-- Every character is one of a piece. -/
theorem exists_standsAt : ∀ {pieces : List Piece} (offset : Nat) {i : Nat} {c : Char},
    (spell pieces)[i]? = some c → ∃ piece span, StandsAt offset pieces piece span ∧
      span.Holds (offset + i) ∧ c ∈ piece.chars := by
  intro pieces
  induction pieces with
  | nil => nofun
  | cons first rest ih =>
    intro offset i c h
    rw [spell_cons] at h
    by_cases hi : i < first.chars.length
    · rw [getElem?_append_left hi] at h
      exact ⟨first, _, .here, ⟨Nat.le_add_right _ _, Nat.add_lt_add_left hi _⟩,
        mem_of_getElem? h⟩
    · have hle := Nat.le_of_not_lt hi
      rw [getElem?_append_right hle] at h
      obtain ⟨piece, span, hstands, hholds, hmem⟩ := ih (offset + first.chars.length) h
      rw [Nat.add_assoc, Nat.add_sub_of_le hle] at hholds
      exact ⟨piece, span, .later hstands, hholds, hmem⟩

/-- A piece stands inside the text that the pieces spell. -/
theorem StandsAt.stop_le (h : StandsAt offset pieces piece span) :
    span.stop ≤ offset + (spell pieces).length := by
  induction h with
  | here =>
    rw [spell_cons, length_append]
    exact Nat.add_le_add_left (Nat.le_add_right _ _) _
  | later below ih =>
    rw [spell_cons, length_append, ← Nat.add_assoc]
    exact ih

/-- A blank among the pieces of a text parts tokens. -/
theorem Lexes.blank_parts (h : Lexes braces slashOpens text pieces) {c : Char}
    (hmem : .blank c ∈ pieces) : partsTokens c = true := by
  induction h with
  | done => cases hmem
  | step here later ih =>
    rcases mem_cons.1 hmem with heq | hmem
    · cases here with
      | blank parts =>
        cases heq
        exact parts
      | line | block | token => cases heq
    · exact ih hmem

/-- A blank among the pieces of a source parts tokens. -/
theorem LexesSource.blank_parts (h : LexesSource source pieces) {c : Char}
    (hmem : .blank c ∈ pieces) : partsTokens c = true := by
  cases h with
  | hashbang rest =>
    rcases mem_cons.1 hmem with heq | hmem
    · cases heq
    · exact rest.blank_parts hmem
  | plain start rest => exact rest.blank_parts hmem

end

/-- The spans of the tokens and comments, whatever the order. -/
theorem Lexed.mem_spans {lexed : Lexed} {span : Span} : span ∈ lexed.spans ↔
    (∃ token ∈ lexed.tokens, token.span = span) ∨
      ∃ comment ∈ lexed.comments, comment.span = span := by
  rw [Lexed.spans, mem_mergeSort, mem_append, mem_map, mem_map]

/-- Spans that do not overlap, in the order of their starts, follow one another. -/
theorem pairwise_mergeSort_start {spans : List Span} (hne : ∀ span ∈ spans, span.start < span.stop)
    (h : spans.Pairwise Span.Apart) :
    (spans.mergeSort fun a b => a.start ≤ b.start).Pairwise fun a b => a.stop ≤ b.start := by
  have hsorted : (spans.mergeSort fun a b => a.start ≤ b.start).Pairwise fun a b =>
      decide (a.start ≤ b.start) = true := by
    refine pairwise_mergeSort (fun a b c hab hbc => ?_) (fun a b => ?_) spans
    · simp only [decide_eq_true_eq] at *
      omega
    · simp only [Bool.or_eq_true, decide_eq_true_eq]
      omega
  have hapart := (mergeSort_perm spans fun a b => a.start ≤ b.start).symm.pairwise h
    fun {_ _} hab => hab.symm
  refine (hsorted.and hapart).imp_of_mem fun {a b} ha hb hab => ?_
  have hstart : a.start ≤ b.start := by simpa using hab.1
  have hb' := hne b (mem_mergeSort.1 hb)
  rcases hab.2 with hle | hle
  · exact hle
  · omega

section
variable {source : List Char} {pieces : List Piece} {lexed : Lexed}

variable (hl : LexesSource source pieces) (h : lexed.Shows source pieces)
include hl h

/-- Each span is the place of a token or comment. -/
theorem Lexed.Shows.span_proper {span : Span} (hmem : span ∈ lexed.spans) :
    span.start < span.stop ∧ span.stop ≤ source.length := by
  rcases Lexed.mem_spans.1 hmem with ⟨token, htoken, rfl⟩ | ⟨comment, hcomment, rfl⟩
  · obtain ⟨word, hstands, _, _⟩ := h.token hl htoken
    have hstop := hstands.stop_le
    rw [hl.spell_eq, Nat.zero_add] at hstop
    exact ⟨(h.token_stands hl htoken).lt, hstop⟩
  · have hstands := h.comment hcomment
    have hstop := hstands.stop_le
    rw [hl.spell_eq, Nat.zero_add] at hstop
    have hlength : 0 < (Piece.comment comment.kind comment.text).chars.length := by
      cases comment.kind <;> simp [Piece.chars, CommentKind.opening]
    have := hstands.stop_eq
    exact ⟨by omega, hstop⟩

/-- Tokens and comments do not overlap. -/
theorem Lexed.Shows.pairwise_apart :
    (lexed.tokens.map Token.span ++ lexed.comments.map Comment.span).Pairwise Span.Apart := by
  have htokens := pairwise_tokensFrom 0 false pieces
  rw [← h.tokens] at htokens
  rw [pairwise_append, pairwise_map, pairwise_map]
  refine ⟨(pairwise_map.1 htokens).imp .inl, h.comments_ordered.imp .inl, ?_⟩
  intro a ha b hb
  obtain ⟨token, htoken, rfl⟩ := mem_map.1 ha
  obtain ⟨comment, hcomment, rfl⟩ := mem_map.1 hb
  exact h.apart hl htoken hcomment

/-- A character that is no blank is one of a token or comment. -/
theorem Lexed.Shows.partsTokens_of_outside {offset : Nat} {c : Char}
    (hc : source[offset]? = some c) (hout : ∀ span ∈ lexed.spans, ¬span.Holds offset) :
    partsTokens c = true := by
  rw [← hl.spell_eq] at hc
  obtain ⟨piece, span, hstands, hholds, hmem⟩ := exists_standsAt 0 hc
  rw [Nat.zero_add] at hholds
  cases piece with
  | blank d =>
    cases mem_singleton.1 hmem
    exact hl.blank_parts hstands.mem
  | token kind word =>
    obtain ⟨facts, hfacts, rfl⟩ := hstands.mem_tokensFrom false
    rw [← h.tokens] at hfacts
    obtain ⟨token, htoken, rfl⟩ := mem_map.1 hfacts
    exact absurd hholds (hout _ (Lexed.mem_spans.2 (.inl ⟨token, htoken, rfl⟩)))
  | comment kind text =>
    obtain ⟨facts, hfacts, rfl⟩ := hstands.mem_commentsFrom
    rw [← h.comments] at hfacts
    obtain ⟨comment, hcomment, rfl⟩ := mem_map.1 hfacts
    exact absurd hholds (hout _ (Lexed.mem_spans.2 (.inr ⟨comment, hcomment, rfl⟩)))

/-- A token says what stands at its span. -/
theorem Lexed.Shows.token_text {token : Token} (hmem : token ∈ lexed.tokens) :
    token.text.toList = token.span.text source := by
  obtain ⟨word, hstands, htext, _⟩ := h.token hl hmem
  rw [htext, String.toList_ofList, ← hl.spell_eq]
  exact (hstands.text_eq [] rfl).symm

/-- The end of the input is one token, the last. -/
theorem Lexed.Shows.filter_endOfInput :
    lexed.allTokens.filter (·.kind == .endOfInput) = [lexed.endToken] := by
  have hend : lexed.endToken.kind = .endOfInput := congrArg TokenFacts.kind h.endToken
  have htokens : lexed.tokens.filter (·.kind == .endOfInput) = [] := by
    refine filter_eq_nil_iff.2 fun token hmem => ?_
    obtain ⟨_, _, _, hword⟩ := h.token hl hmem
    simpa using hword.kind_ne
  rw [Lexed.allTokens, filter_append, htokens, nil_append]
  simp [hend]

end

/-- The tokens and comments of a source tile it: they stand one after the other, each says what is
at its place, and only white space is left between them. -/
theorem lex_tiles {source : List Char} {lexed : Lexed} (h : lex source = .ok lexed) :
    lexed.Tiles source := by
  obtain ⟨pieces, hl, hshows⟩ := lexesSource_of_lex h
  have hproper : ∀ span ∈ lexed.spans, _ := fun _ hmem => hshows.span_proper hl hmem
  refine
    { ordered := pairwise_mergeSort_start (fun span hmem => ?_) (hshows.pairwise_apart hl)
      proper := hproper
      token_text := fun _ hmem => hshows.token_text hl hmem
      comment_text := fun _ hmem => (hshows.comment_stands hl hmem).text_eq.symm
      outside := fun _ _ hc hout => hshows.partsTokens_of_outside hl hc hout
      last := ⟨getLast?_concat, hshows.filter_endOfInput hl⟩
      end_span := congrArg TokenFacts.span hshows.endToken }
  exact (hproper span (mem_mergeSort.2 hmem)).1

/-- A source with comments of every kind, a template and a regular expression. -/
def mixedSource : List Char :=
  "#!run\n/**/a = `\x7d$\x7b/[/]/g\x7d` // ;".toList

/-- The source is taken apart into five tokens and three comments. -/
theorem lex_tiles_mixedSource : ∃ lexed, lex mixedSource = .ok lexed ∧ lexed.tokens.length = 5 ∧
    lexed.comments.length = 3 ∧ lexed.Tiles mixedSource := by
  have hok : ((lex mixedSource).toOption.any fun lexed =>
      lexed.tokens.length == 5 && lexed.comments.length == 3) = true := by
    decide +kernel
  obtain ⟨lexed, hlex, hcounts⟩ := exists_eq_ok_of_any hok
  obtain ⟨htokens, hcomments⟩ := Bool.and_eq_true_iff.1 hcounts
  exact ⟨lexed, hlex, beq_iff_eq.1 htokens, beq_iff_eq.1 hcomments, lex_tiles hlex⟩

end DocTypes
