import DocTypes.Proofs.Lexing.Ends

/-!
# Tokens spaced anew

The texts of the tokens of a source, with one blank between each and the next, are lexed to the same
tokens (`lex_respaced`). So comments, white space and what stands side by side decide nothing: it is
the tokens before it that decide how a token is read.
-/

namespace DocTypes

/-- The texts of the tokens with one blank between each and the next. -/
def Lexed.respaced (lexed : Lexed) : List Char :=
  [' '].intercalate (lexed.tokens.map fun token => token.text.toList)

/-- How a token is spelled: its text, and its code points if they are not all characters. -/
structure Spelling where
  text : String
  points? : Option (List Nat) := none
deriving DecidableEq

instance : Coe String Spelling :=
  ⟨fun text => { text }⟩

/-- What a token is, apart from its place. -/
def Token.word (token : Token) : TokenKind × Spelling :=
  (token.kind, ⟨token.text, token.points?⟩)

/-- What a token of characters is. -/
def plainWord (token : TokenKind × List Char) : TokenKind × Spelling :=
  (token.1, String.ofList token.2)

/-- What a token with these facts is, apart from its place. -/
def TokenFacts.word (facts : TokenFacts) : TokenKind × Spelling :=
  (facts.kind, ⟨facts.text, facts.points?⟩)

/-- Tokens with one blank between each and the next, in pieces. -/
def respacedPieces (tokens : List (TokenKind × List Char)) : List Piece :=
  (tokens.map fun token => Piece.token token.1 token.2).intersperse (.blank ' ')

/-- The tokens of tokens that are spaced anew. -/
theorem tokensOf_respacedPieces (tokens : List (TokenKind × List Char)) :
    tokensOf (respacedPieces tokens) = tokens := by
  induction tokens with
  | nil => rfl
  | cons token rest ih =>
    cases rest with
    | nil => rfl
    | cons next later => exact congrArg (token :: ·) ih

/-- What tokens that are spaced anew spell. -/
theorem spell_respacedPieces (tokens : List (TokenKind × List Char)) :
    spell (respacedPieces tokens) = [' '].intercalate (tokens.map Prod.snd) := by
  induction tokens with
  | nil => rfl
  | cons token rest ih =>
    cases rest with
    | nil => simp [respacedPieces, spell, Piece.chars, List.intercalate]
    | cons next later =>
      have := congrArg (fun text => token.2 ++ ([' '] ++ text)) ih
      simpa [respacedPieces, spell, Piece.chars, List.intercalate, List.intersperse] using this

variable {braces : List Bool} {slashOpens : Bool} {source : List Char} {pieces : List Piece}

/-- Tokens that follow one another are kept apart by blanks. -/
theorem TokenChain.parted_respacedPieces {tokens : List (TokenKind × List Char)}
    (h : TokenChain braces slashOpens tokens) :
    Parted (respacedPieces tokens) := by
  induction h with
  | nil => trivial
  | @cons _ _ _ kind text tokens here later ih =>
    cases tokens with
    | nil => exact ⟨here.endsBefore_of_free nofun, trivial⟩
    | cons next tokens =>
      have hends : EndsBefore kind text (' ' :: spell (respacedPieces (next :: tokens))) :=
        here.endsBefore_of_free fun c hc => by cases hc; decide +kernel
      exact ⟨hends, rfl, ih⟩

/-- No token starts like a hashbang line. -/
theorem IsToken.not_hashbang {braces' : List Bool} {kind : TokenKind} {text : List Char}
    (h : IsToken braces slashOpens kind text braces') (rest : List Char) :
    ¬['#', '!'] <+: text ++ rest := by
  rintro ⟨more, hmore⟩
  cases h with
  | @intro c cs _ split _ solid plain here =>
    obtain ⟨later, hlater⟩ := here.starts
    simp only [hlater, List.cons_append, List.nil_append, List.cons.injEq] at hmore
    obtain ⟨rfl, hmore⟩ := hmore
    cases here with
    | name start => cases start
    | number start => cases start
    | string quote => rcases quote with h | h <;> cases h
    | template quote => cases quote
    | resume brace => cases brace
    | regex slash => cases slash
    | punctuator other signs => cases signs
    | privateName hash start =>
      cases hlater
      cases cs with
      | nil => cases start
      | cons d ds =>
        rw [scanName, span_cons (isNamePart_of_start start)] at hmore
        cases hmore
        cases start

/-- Spacing tokens anew makes no hashbang line. -/
theorem TokenChain.not_hashbang {tokens : List (TokenKind × List Char)}
    (h : TokenChain braces slashOpens tokens) :
    ¬['#', '!'] <+: spell (respacedPieces tokens) := by
  cases h with
  | nil => nofun
  | @cons _ _ _ kind text tokens here later =>
    cases tokens with
    | nil => exact here.not_hashbang []
    | cons next tokens => exact here.not_hashbang (' ' :: spell (respacedPieces (next :: tokens)))

/-- The tokens of a source follow one another. -/
theorem LexesSource.chain (h : LexesSource source pieces) :
    TokenChain [] true (tokensOf pieces) := by
  cases h with
  | hashbang rest => exact rest.chain
  | plain start rest => exact rest.chain

/-- The tokens that are read off pieces are those among them. -/
theorem words_tokensFrom (offset : Nat) (afterBreak : Bool) (pieces : List Piece) :
    (tokensFrom offset afterBreak pieces).map TokenFacts.word =
      (tokensOf pieces).map plainWord := by
  induction pieces generalizing offset afterBreak with
  | nil => rfl
  | cons first rest ih =>
    cases first with
    | token kind text => exact congrArg (plainWord (kind, text) :: ·) (ih _ _)
    | blank c | comment kind text => exact ih _ _

/-- What the tokens are that the lexer gives. -/
theorem Lexed.Shows.words {lexed : Lexed} (h : lexed.Shows source pieces) :
    lexed.allTokens.map Token.word =
      (tokensOf pieces).map plainWord ++ [plainWord (.endOfInput, [])] := by
  have htokens := congrArg (List.map TokenFacts.word) h.tokens
  have hend : lexed.endToken.word = plainWord (.endOfInput, []) :=
    congrArg TokenFacts.word h.endToken
  rw [words_tokensFrom, List.map_map] at htokens
  rw [Lexed.allTokens, List.map_append, ← htokens, ← hend]
  rfl

/-- The text of tokens that are spaced anew. -/
theorem Lexed.Shows.respaced {lexed : Lexed} (h : lexed.Shows source pieces) :
    lexed.respaced = spell (respacedPieces (tokensOf pieces)) := by
  have htokens := congrArg (List.map TokenFacts.word) h.tokens
  rw [words_tokensFrom, List.map_map] at htokens
  have htexts := congrArg (List.map fun word => word.2.text.toList) htokens
  rw [List.map_map, List.map_map] at htexts
  rw [spell_respacedPieces, Lexed.respaced]
  refine congrArg ([' '].intercalate ·) (htexts.trans (List.map_congr_left fun token _ => ?_))
  exact String.toList_ofList

/-- The tokens of a source, spaced anew, are the tokens of the text that they make. -/
theorem lex_respaced {source : List Char} {lexed : Lexed} (h : lex source = .ok lexed) :
    ∃ again, lex lexed.respaced = .ok again ∧
      again.allTokens.map Token.word = lexed.allTokens.map Token.word := by
  obtain ⟨pieces, hl, hshows⟩ := lexesSource_of_lex h
  have hchain := hl.chain
  have hlexes : Lexes [] true (spell (respacedPieces (tokensOf pieces)))
      (respacedPieces (tokensOf pieces)) := by
    refine TokenChain.lexes ?_ hchain.parted_respacedPieces
    rwa [tokensOf_respacedPieces]
  obtain ⟨again, hagain, hshows'⟩ := lex_of_lexesSource (.plain hchain.not_hashbang hlexes)
  refine ⟨again, by rw [hshows.respaced, hagain], ?_⟩
  rw [hshows'.words, hshows.words, tokensOf_respacedPieces]

/-- A source whose tokens touch one another: numbers, a fraction behind a question mark, a division,
a regular expression and a nested template. -/
def denseSource : List Char :=
  "1..e?.5:a/b/*/*/,/[/]/g+`$\x7b\x7bb:`\\``\x7d\x7d`>>>=0b12".toList

/-- The source is taken apart into 22 tokens, and so is the text of its tokens spaced anew. -/
theorem lex_respaced_denseSource : ∃ lexed again, lex denseSource = .ok lexed ∧
    lexed.tokens.length = 22 ∧ lex lexed.respaced = .ok again ∧
      again.allTokens.map Token.word = lexed.allTokens.map Token.word := by
  have hok : ((lex denseSource).toOption.any fun lexed => lexed.tokens.length == 22) = true := by
    decide +kernel
  obtain ⟨lexed, hlex, hcount⟩ := exists_eq_ok_of_any hok
  obtain ⟨again, hagain, hwords⟩ := lex_respaced hlex
  exact ⟨lexed, again, hlex, beq_iff_eq.1 hcount, hagain, hwords⟩

end DocTypes
