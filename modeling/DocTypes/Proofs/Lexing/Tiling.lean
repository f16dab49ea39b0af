import DocTypes.Proofs.Lexing.Pieces
import DocTypes.Proofs.Reader.Ensures
import DocTypes.Proofs.Text.Slice

/-!
# The pieces tile the source

The pieces of a source, one after the other, spell it. So each has its span, two of them never
overlap, and a token or comment that the lexer reports is a piece with its span. From this the
order of tokens (`Lexed.Shows.ordered`) and of comments (`Lexed.Shows.comments_ordered`) follow,
and which characters stand where a token starts and before it ends (`Token.Stands`).
-/

namespace DocTypes

open List

/-- The text that pieces spell. -/
def spell (pieces : List Piece) : List Char :=
  pieces.flatMap Piece.chars

/-- A piece with its span among pieces that start at an offset. -/
inductive StandsAt : Nat → List Piece → Piece → Span → Prop where
  | here {offset : Nat} {piece : Piece} {rest : List Piece} :
    StandsAt offset (piece :: rest) piece ⟨offset, offset + piece.chars.length⟩
  | later {offset : Nat} {first piece : Piece} {rest : List Piece} {span : Span}
    (below : StandsAt (offset + first.chars.length) rest piece span) :
    StandsAt offset (first :: rest) piece span

/-- What is known of the text of a token of a kind. -/
structure TokenText (kind : TokenKind) (text : List Char) : Prop where
  starts : ∃ c later, text = c :: later ∧ partsTokens c = false
  ends : EndsSolid text
  kind_ne : kind ≠ .endOfInput
  template : kind = .template → 2 ≤ text.length

section
variable {offset : Nat} {pieces : List Piece} {piece piece' : Piece} {span span' : Span}
  {braces : List Bool} {slashOpens : Bool} {source text : List Char}

@[simp] theorem spell_nil : spell [] = [] := rfl

@[simp] theorem spell_cons : spell (piece :: pieces) = piece.chars ++ spell pieces := rfl

/-- The pieces of a text spell it. -/
theorem Lexes.spell_eq (h : Lexes braces slashOpens text pieces) : spell pieces = text := by
  induction h with
  | done => rfl
  | step here later ih => rw [spell_cons, ih, here.chars_append]

/-- The pieces of a source spell it. -/
theorem LexesSource.spell_eq (h : LexesSource source pieces) : spell pieces = source := by
  cases h with
  | hashbang rest => rw [spell_cons, rest.spell_eq, hashbang_append]
  | plain start rest => exact rest.spell_eq

/-- The tokens among the pieces of a text. -/
theorem Lexes.tokenText (h : Lexes braces slashOpens text pieces) :
    ∀ {kind : TokenKind} {word : List Char}, .token kind word ∈ pieces → TokenText kind word := by
  induction h with
  | done => nofun
  | step here later ih =>
    intro kind word hmem
    rcases mem_cons.1 hmem with heq | hmem
    · cases here with
      | blank | line | block => cases heq
      | token solid plain htoken =>
        cases heq
        obtain ⟨later, hlater⟩ := htoken.starts
        exact ⟨⟨_, later, hlater, solid⟩, htoken.endsSolid, htoken.kind_facts.1,
          htoken.kind_facts.2⟩
    · exact ih hmem

/-- The tokens among the pieces of a source. -/
theorem LexesSource.tokenText (h : LexesSource source pieces) {kind : TokenKind}
    {word : List Char} (hmem : .token kind word ∈ pieces) : TokenText kind word := by
  cases h with
  | hashbang rest =>
    rcases mem_cons.1 hmem with heq | hmem
    · cases heq
    · exact rest.tokenText hmem
  | plain start rest => exact rest.tokenText hmem

namespace StandsAt

section
variable (h : StandsAt offset pieces piece span)
include h

/-- A piece that stands somewhere is one of the pieces. -/
theorem mem : piece ∈ pieces := by
  induction h with
  | here => exact .head _
  | later below ih => exact .tail _ ih

/-- The span of a piece is as long as the piece. -/
theorem stop_eq : span.stop = span.start + piece.chars.length := by
  induction h with
  | here => rfl
  | later below ih => exact ih

/-- No piece stands before the first. -/
theorem le_start : offset ≤ span.start := by
  induction h with
  | here => exact Nat.le_refl _
  | later below ih => omega

/-- Two pieces are the same or apart. -/
theorem apart (h' : StandsAt offset pieces piece' span') :
    piece = piece' ∧ span = span' ∨ span.stop ≤ span'.start ∨ span'.stop ≤ span.start := by
  induction h with
  | here =>
    cases h' with
    | here => exact .inl ⟨rfl, rfl⟩
    | later below => exact .inr (.inl below.le_start)
  | later below ih =>
    cases h' with
    | here => exact .inr (.inr below.le_start)
    | later below' => exact ih below'

/-- The text at the span of a piece is the piece. -/
theorem text_eq : ∀ (front : List Char),
    front.length = offset → span.text (front ++ spell pieces) = piece.chars := by
  induction h with
  | @here offset piece rest =>
    intro front hfront
    simp [Span.text, slice, ← hfront]
  | @later offset first piece rest span below ih =>
    intro front hfront
    have := ih (front ++ first.chars) (by rw [length_append, hfront])
    rwa [append_assoc, ← spell_cons] at this

end

end StandsAt

/-- A token that is read off pieces is one of them. -/
theorem standsAt_of_mem_tokensFrom : ∀ {pieces : List Piece} {offset : Nat} {afterBreak : Bool}
    {facts : TokenFacts}, facts ∈ tokensFrom offset afterBreak pieces → ∃ word,
      StandsAt offset pieces (.token facts.kind word) facts.span ∧
        facts.text = String.ofList word := by
  intro pieces
  induction pieces with
  | nil => nofun
  | cons first rest ih =>
    intro offset afterBreak facts hmem
    cases first with
    | token kind word =>
      rcases mem_cons.1 hmem with rfl | hmem
      · exact ⟨word, .here, rfl⟩
      · obtain ⟨word', hstands, htext⟩ := ih hmem
        exact ⟨word', .later hstands, htext⟩
    | blank c | comment kind text =>
      obtain ⟨word, hstands, htext⟩ := ih hmem
      exact ⟨word, .later hstands, htext⟩

/-- A comment that is read off pieces is one of them. -/
theorem standsAt_of_mem_commentsFrom : ∀ {pieces : List Piece} {offset : Nat}
    {facts : CommentFacts}, facts ∈ commentsFrom offset pieces →
      StandsAt offset pieces (.comment facts.kind facts.text) facts.span := by
  intro pieces
  induction pieces with
  | nil => nofun
  | cons first rest ih =>
    intro offset facts hmem
    cases first with
    | comment kind text =>
      rcases mem_cons.1 hmem with rfl | hmem
      · exact .here
      · exact .later (ih hmem)
    | blank c | token kind text => exact .later (ih hmem)

/-- Tokens that are read off pieces stand in order. -/
theorem tokenRun_of_facts : ∀ {pieces : List Piece} {offset : Nat} {afterBreak : Bool}
    {tokens : List Token}, tokens.map Token.facts = tokensFrom offset afterBreak pieces →
      TokenRun offset tokens (offset + (spell pieces).length) := by
  intro pieces
  induction pieces with
  | nil =>
    intro offset afterBreak tokens h
    rw [map_eq_nil_iff.1 h]
    exact Nat.le_refl _
  | cons first rest ih =>
    intro offset afterBreak tokens h
    have hlength : offset + (spell (first :: rest)).length =
        offset + first.chars.length + (spell rest).length := by
      rw [spell_cons, length_append, Nat.add_assoc]
    rw [hlength]
    cases first with
    | token kind word =>
      obtain ⟨token, later, rfl, hfacts, hlater⟩ := map_eq_cons_iff.1 h
      have hspan : token.span = ⟨offset, offset + word.length⟩ := congrArg TokenFacts.span hfacts
      refine ⟨Nat.le_of_eq (congrArg Span.start hspan).symm, ?_⟩
      rw [hspan]
      exact ih hlater
    | blank c | comment kind text =>
      have hrun := ih h
      cases tokens with
      | nil => exact Nat.le_trans (Nat.le_add_right _ _) hrun
      | cons token later => exact ⟨Nat.le_trans (Nat.le_add_right _ _) hrun.1, hrun.2⟩

/-- Comments that are read off pieces stand in order. -/
theorem pairwise_commentsFrom (offset : Nat) (pieces : List Piece) :
    (commentsFrom offset pieces).Pairwise fun a b => a.span.stop ≤ b.span.start := by
  induction pieces generalizing offset with
  | nil => exact .nil
  | cons first rest ih =>
    cases first with
    | comment kind text =>
      exact .cons (fun _ hmem => (standsAt_of_mem_commentsFrom hmem).le_start) (ih _)
    | blank c | token kind text => exact ih _

end

/-- A token as it stands in the source: what it says is there, and the first character and the last
are no white space. -/
structure Token.Stands (source : List Char) (token : Token) : Prop where
  lt : token.span.start < token.span.stop
  first : ∃ c, source[token.span.start]? = some c ∧ partsTokens c = false
  last : ∃ c, source[token.span.stop - 1]? = some c ∧ isBlank c = false

/-- A comment as it stands in the source, its opening mark first. -/
structure Comment.Stands (source : List Char) (comment : Comment) : Prop where
  text_eq : comment.span.text source =
    comment.kind.opening ++ comment.text ++ comment.kind.closing
  stop_eq : comment.span.stop = comment.span.start +
    (comment.kind.opening ++ comment.text ++ comment.kind.closing).length

section
variable {source : List Char} {pieces : List Piece} {lexed : Lexed}

variable (hl : LexesSource source pieces) (h : lexed.Shows source pieces)
include hl h

/-- Each token is a piece of the source. -/
theorem Lexed.Shows.token {token : Token} (hmem : token ∈ lexed.tokens) :
    ∃ word, StandsAt 0 pieces (.token token.kind word) token.span ∧
      token.text = String.ofList word ∧ TokenText token.kind word := by
  have hfacts : token.facts ∈ tokensFrom 0 false pieces := by
    rw [← h.tokens]
    exact mem_map_of_mem hmem
  obtain ⟨word, hstands, htext⟩ := standsAt_of_mem_tokensFrom hfacts
  exact ⟨word, hstands, htext, hl.tokenText hstands.mem⟩

omit hl in
/-- Each comment is a piece of the source. -/
theorem Lexed.Shows.comment {comment : Comment} (hmem : comment ∈ lexed.comments) :
    StandsAt 0 pieces (.comment comment.kind comment.text) comment.span := by
  have hfacts : comment.facts ∈ commentsFrom 0 pieces := by
    rw [← h.comments]
    exact mem_map_of_mem hmem
  exact standsAt_of_mem_commentsFrom hfacts

/-- The tokens of a source are in order. -/
theorem Lexed.Shows.ordered : lexed.Ordered := by
  have hend := h.endToken
  refine ⟨?_, ?_, congrArg TokenFacts.kind hend, ?_⟩
  · intro token hmem
    obtain ⟨word, hstands, htext, hword⟩ := h.token hl hmem
    have hlist : token.text.toList = word := by rw [htext, String.toList_ofList]
    obtain ⟨c, later, hstarts, _⟩ := hword.starts
    refine ⟨?_, ?_, ?_⟩
    · rw [hlist]
      exact hstands.stop_eq
    · rw [hlist, hstarts]
      exact cons_ne_nil _ _
    · rw [hlist]
      exact hword.template
  · have hrun := tokenRun_of_facts h.tokens
    rw [hl.spell_eq, Nat.zero_add] at hrun
    rwa [show lexed.endToken.span.start = source.length from
      congrArg (fun facts => facts.span.start) hend]
  · intro token hmem
    obtain ⟨_, _, _, hword⟩ := h.token hl hmem
    exact hword.kind_ne

omit hl in
/-- The comments of a source are in order. -/
theorem Lexed.Shows.comments_ordered :
    lexed.comments.Pairwise fun a b => a.span.stop ≤ b.span.start := by
  have := pairwise_commentsFrom 0 pieces
  rw [← h.comments] at this
  exact pairwise_map.1 this

/-- Where the tokens of a source stand. -/
theorem Lexed.Shows.token_stands {token : Token} (hmem : token ∈ lexed.tokens) :
    token.Stands source := by
  obtain ⟨word, hstands, _, hword⟩ := h.token hl hmem
  have htext : token.span.text source = word := by
    rw [← hl.spell_eq]
    exact hstands.text_eq [] rfl
  have hstop := hstands.stop_eq
  obtain ⟨c, later, hstarts, hc⟩ := hword.starts
  obtain ⟨front, last, hends, hlast⟩ := hword.ends
  have hlength : word.length = front.length + 1 := by
    rw [hends, length_append, length_singleton]
  refine ⟨?_, ⟨c, ?_, hc⟩, ⟨last, ?_, hlast⟩⟩
  · simp only [Piece.chars] at hstop
    omega
  · have := getElem?_of_text_eq htext (i := 0) (by omega)
    rwa [hstarts] at this
  · have := getElem?_of_text_eq htext (i := front.length) (by omega)
    rw [hends, getElem?_concat_length] at this
    rw [← this, hstop]
    simp only [Piece.chars]
    congr 1
    omega

/-- Where the comments of a source stand. -/
theorem Lexed.Shows.comment_stands {comment : Comment} (hmem : comment ∈ lexed.comments) :
    comment.Stands source := by
  have hstands := h.comment hmem
  refine ⟨?_, hstands.stop_eq⟩
  rw [← hl.spell_eq]
  exact hstands.text_eq [] rfl

/-- No token overlaps a comment. -/
theorem Lexed.Shows.apart {token : Token} {comment : Comment} (htoken : token ∈ lexed.tokens)
    (hcomment : comment ∈ lexed.comments) :
    token.span.stop ≤ comment.span.start ∨ comment.span.stop ≤ token.span.start := by
  obtain ⟨word, hstands, _, _⟩ := h.token hl htoken
  rcases hstands.apart (h.comment hcomment) with ⟨heq, _⟩ | hapart
  · cases heq
  · exact hapart

end

end DocTypes
