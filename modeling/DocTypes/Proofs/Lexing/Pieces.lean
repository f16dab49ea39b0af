import DocTypes.Proofs.Lexing.Scanner

/-!
# A source in pieces

The lexer takes a source apart into pieces: blanks, comments and tokens. `Lexes` says how a text
falls into pieces without a word about offsets, lines or what was collected so far. What it depends
on besides the text is the stack of open braces and whether a slash opens a regular expression.
Tokens and comments with their places are then read off the pieces (`tokensFrom`, `commentsFrom`),
and `lexesSource_of_lex` and `lex_of_lexesSource` say that this is what the lexer gives.
-/

namespace DocTypes

open List

/-- A stretch of source text that the lexer takes in one step. -/
inductive Piece where
  | blank (c : Char)
  | comment (kind : CommentKind) (text : List Char)
  | token (kind : TokenKind) (text : List Char)
deriving DecidableEq

/-- The mark that opens a comment. -/
def CommentKind.opening : CommentKind → List Char
  | .block => ['/', '*']
  | .line => ['/', '/']
  | .hashbang => ['#', '!']

/-- The mark that closes a comment. -/
def CommentKind.closing : CommentKind → List Char
  | .block => ['*', '/']
  | _ => []

/-- The characters of a piece. -/
def Piece.chars : Piece → List Char
  | .blank c => [c]
  | .comment kind text => kind.opening ++ text ++ kind.closing
  | .token _ text => text

/-- The characters that part tokens: line breaks and blanks. -/
def partsTokens (c : Char) : Bool :=
  c == '\n' || isSeparator c || isTokenBlank c

/-- Does a line break stand in a piece that is no token? -/
def Piece.breaks : Piece → Bool
  | .blank c => c == '\n' || isSeparator c
  | .comment _ text => text.contains '\n'
  | .token _ _ => false

/-- Does a slash after a token open a regular expression? -/
def slashOpensAfter (kind : TokenKind) (text : String) : Bool :=
  match kind with
  | .name => wordsBeforeExpression.contains text
  | .punctuator => !([")", "]", "\x7d", "++", "--"].contains text)
  | .template => text.toList.getLast? == some '{'
  | _ => false

/-- The open braces after a punctuator that starts with `c`. -/
def bracesAfter (c : Char) (braces : List Bool) : List Bool :=
  if c == '{' then false :: braces else if c == '}' then braces.drop 1 else braces

/-- Does a number start with `c` before `cs`? -/
def startsNumber (c : Char) (cs : List Char) : Bool :=
  c.isDigit || (c == '.' && (cs.head?.map Char.isDigit).getD false)

/-- The token that the lexer takes at `c :: cs`, and the open braces after it. -/
inductive TokenAt (braces : List Bool) (slashOpens : Bool) (c : Char) (cs : List Char) :
    TokenKind → Split → List Bool → Prop where
  | name (start : isNameStart c = true) :
    TokenAt braces slashOpens c cs .name (scanName (c :: cs)) braces
  | privateName (hash : c = '#') (start : (cs.head?.map isNameStart).getD false = true) :
    TokenAt braces slashOpens c cs .privateName ((scanName cs).prepend [c]) braces
  | number {split : Split} (start : startsNumber c cs = true) (other : isNameStart c = false)
    (scan : scanNumber (c :: cs) = .ok split)
    (stop : (split.2.head?.map isNameStart).getD false = false) :
    TokenAt braces slashOpens c cs .number split braces
  | string {split : Split} (quote : c = '"' ∨ c = '\'') (scan : scanString c cs = some split) :
    TokenAt braces slashOpens c cs .string (split.prepend [c]) braces
  | template {split : Split} {opens : Bool} (quote : c = '\x60')
    (scan : scanTemplate cs = some (split, opens)) :
    TokenAt braces slashOpens c cs .template (split.prepend [c])
      (if opens then true :: braces else braces)
  | resume {outer : List Bool} {split : Split} {opens : Bool} (brace : c = '}')
    (inner : braces = true :: outer) (scan : scanTemplate cs = some (split, opens)) :
    TokenAt braces slashOpens c cs .template (split.prepend [c])
      (if opens then true :: outer else outer)
  | regex {split : Split} (slash : c = '/') (opens : slashOpens = true)
    (scan : scanRegex cs = some split) :
    TokenAt braces slashOpens c cs .regex (split.prepend [c]) braces
  | punctuator {split : Split} (other : isNameStart c = false)
    (signs : ['#', '"', '\'', '\x60'].contains c = false) (noNumber : startsNumber c cs = false)
    (noRegex : (c == '/' && slashOpens) = false) (noTemplate : c = '}' → braces.head? ≠ some true)
    (scan : scanPunctuator (c :: cs) = some split) :
    TokenAt braces slashOpens c cs .punctuator split (bracesAfter c braces)

/-- Do the characters open a comment? -/
def opensComment (c : Char) (cs : List Char) : Bool :=
  c == '/' && (cs.head? == some '/' || cs.head? == some '*')

/-- The piece that a text starts with, what follows it, and the open braces after it. -/
inductive PieceAt (braces : List Bool) (slashOpens : Bool) :
    List Char → Piece → List Char → List Bool → Prop where
  | blank {c : Char} {cs : List Char} (parts : partsTokens c = true) :
    PieceAt braces slashOpens (c :: cs) (.blank c) cs braces
  | line {cs : List Char} :
    PieceAt braces slashOpens ('/' :: '/' :: cs) (.comment .line (cs.span (· != '\n')).1)
      (cs.span (· != '\n')).2 braces
  | block {cs text rest : List Char}
    (scan : scanBlockComment cs = some (text ++ ['*', '/'], rest)) :
    PieceAt braces slashOpens ('/' :: '*' :: cs) (.comment .block text) rest braces
  | token {c : Char} {cs : List Char} {kind : TokenKind} {split : Split} {braces' : List Bool}
    (solid : partsTokens c = false) (plain : opensComment c cs = false)
    (here : TokenAt braces slashOpens c cs kind split braces') :
    PieceAt braces slashOpens (c :: cs) (.token kind split.1) split.2 braces'

/-- Does a slash after a piece open a regular expression? -/
def Piece.slashOpens (before : Bool) : Piece → Bool
  | .token kind text => slashOpensAfter kind (String.ofList text)
  | _ => before

/-- How a text falls into pieces, given the open braces and whether a slash opens a regular
expression. -/
inductive Lexes : List Bool → Bool → List Char → List Piece → Prop where
  | done {braces : List Bool} {slashOpens : Bool} : Lexes braces slashOpens [] []
  | step {braces braces' : List Bool} {slashOpens : Bool} {text rest : List Char} {piece : Piece}
    {pieces : List Piece} (here : PieceAt braces slashOpens text piece rest braces')
    (later : Lexes braces' (piece.slashOpens slashOpens) rest pieces) :
    Lexes braces slashOpens text (piece :: pieces)

/-- How a source falls into pieces, its hashbang line first. -/
inductive LexesSource : List Char → List Piece → Prop where
  | hashbang {cs : List Char} {pieces : List Piece}
    (rest : Lexes [] true (cs.span (· != '\n')).2 pieces) :
    LexesSource ('#' :: '!' :: cs) (.comment .hashbang (cs.span (· != '\n')).1 :: pieces)
  | plain {source : List Char} {pieces : List Piece} (start : ¬['#', '!'] <+: source)
    (rest : Lexes [] true source pieces) : LexesSource source pieces

/-- What a token says, but for its line and column. -/
structure TokenFacts where
  kind : TokenKind
  text : String
  span : Span
  afterBreak : Bool
  points? : Option (List Nat) := none
deriving DecidableEq

/-- What a token says, but for its line and column. -/
def Token.facts (token : Token) : TokenFacts :=
  ⟨token.kind, token.text, token.span, token.afterBreak, token.points?⟩

/-- What a comment says, but for its line. -/
structure CommentFacts where
  kind : CommentKind
  text : List Char
  span : Span
deriving DecidableEq

/-- What a comment says, but for its line. -/
def Comment.facts (comment : Comment) : CommentFacts :=
  ⟨comment.kind, comment.text, comment.span⟩

/-- The tokens among pieces that start at an offset, given whether a line break stands before. -/
def tokensFrom : Nat → Bool → List Piece → List TokenFacts
  | _, _, [] => []
  | offset, afterBreak, .token kind text :: rest =>
    ⟨kind, String.ofList text, ⟨offset, offset + text.length⟩, afterBreak, none⟩ ::
      tokensFrom (offset + text.length) false rest
  | offset, afterBreak, piece :: rest =>
    tokensFrom (offset + piece.chars.length) (afterBreak || piece.breaks) rest

/-- The comments among pieces that start at an offset. -/
def commentsFrom : Nat → List Piece → List CommentFacts
  | _, [] => []
  | offset, .comment kind text :: rest =>
    ⟨kind, text, ⟨offset, offset + (Piece.comment kind text).chars.length⟩⟩ ::
      commentsFrom (offset + (Piece.comment kind text).chars.length) rest
  | offset, piece :: rest => commentsFrom (offset + piece.chars.length) rest

/-- Does a line break stand at the end of pieces, behind their last token? -/
def breakAfter : Bool → List Piece → Bool
  | afterBreak, [] => afterBreak
  | _, .token _ _ :: rest => breakAfter false rest
  | afterBreak, piece :: rest => breakAfter (afterBreak || piece.breaks) rest

section
variable {source : List Char} {lexer next : Lexer} {c : Char} {cs : List Char}

/-- Taking template text. -/
theorem takeTemplate_eq_ok (h : lexer.takeTemplate source c cs = .ok next) :
    ∃ split opens, scanTemplate cs = some (split, opens) ∧
      next = { lexer.take .template (split.prepend [c]) with
        braces := if opens then true :: lexer.braces else lexer.braces } := by
  rw [Lexer.takeTemplate] at h
  split at h
  case h_1 => cases h
  case h_2 split opens hscan =>
    cases h
    refine ⟨split, opens, hscan, ?_⟩
    cases opens <;> rfl

/-- The token that the lexer takes is the one at its place. -/
theorem tokenAt_of_takeToken (hrest : lexer.rest = c :: cs)
    (h : lexer.takeToken source c cs = .ok next) :
    ∃ kind split braces, TokenAt lexer.braces (regexAllowedAfter lexer.tokens.head?) c cs kind split
      braces ∧ next = { lexer.take kind split with braces } := by
  rw [Lexer.takeToken] at h
  split at h
  case isTrue hname =>
    cases h
    rw [hrest]
    exact ⟨_, _, _, .name hname, rfl⟩
  case isFalse hname =>
  have hother : isNameStart c = false := by simpa using hname
  split at h
  case isTrue hhash =>
    split at h
    case isTrue hstart =>
      cases h
      exact ⟨_, _, _, .privateName (beq_iff_eq.1 hhash) hstart, rfl⟩
    case isFalse => cases h
  case isFalse hhash =>
  split at h
  case isTrue hnumber =>
    rw [Lexer.takeNumber, hrest] at h
    split at h
    case h_1 | h_2 => cases h
    case h_3 split hscan =>
      split at h
      case isTrue => cases h
      case isFalse hstop =>
        cases h
        exact ⟨_, _, _, .number hnumber hother hscan (by simpa using hstop), rfl⟩
  case isFalse hnumber =>
  split at h
  case isTrue hquote =>
    split at h
    case h_1 => cases h
    case h_2 split hscan =>
      cases h
      refine ⟨_, _, _, .string ?_ hscan, rfl⟩
      simpa using hquote
  case isFalse hquote =>
  split at h
  case isTrue hbacktick =>
    obtain ⟨split, opens, hscan, rfl⟩ := takeTemplate_eq_ok h
    exact ⟨_, _, _, .template (beq_iff_eq.1 hbacktick) hscan, rfl⟩
  case isFalse hbacktick =>
  split at h
  case isTrue hslash =>
    obtain ⟨hslash, hopens⟩ := Bool.and_eq_true_iff.1 hslash
    split at h
    case h_1 => cases h
    case h_2 split hscan =>
      cases h
      exact ⟨_, _, _, .regex (beq_iff_eq.1 hslash) hopens hscan, rfl⟩
  case isFalse hslash =>
  unfold Lexer.takePunctuator at h
  split at h
  case h_1 outer hbraces =>
    obtain ⟨split, opens, hscan, rfl⟩ := takeTemplate_eq_ok h
    exact ⟨_, _, _, .resume rfl hbraces hscan, rfl⟩
  case h_2 hresume =>
    rw [hrest] at h
    split at h
    case h_1 => cases h
    case h_2 split hscan =>
      cases h
      refine ⟨_, _, _, .punctuator hother ?_ (Bool.eq_false_iff.2 hnumber)
        (Bool.eq_false_iff.2 hslash) ?_ hscan, rfl⟩
      · simp_all
      · intro hc hhead
        cases hbraces : lexer.braces with
        | nil => simp [hbraces] at hhead
        | cons inner outer =>
          rw [hbraces] at hhead
          cases hhead
          exact hresume outer hc hbraces

/-- Template text that is there is taken. -/
theorem takeTemplate_of_scan {split : Split} {opens : Bool}
    (h : scanTemplate cs = some (split, opens)) :
    lexer.takeTemplate source c cs =
      .ok { lexer.take .template (split.prepend [c]) with
        braces := if opens then true :: lexer.braces else lexer.braces } := by
  rw [Lexer.takeTemplate, h]
  cases opens <;> rfl

/-- The lexer takes the token at its place. -/
theorem takeToken_of_tokenAt {kind : TokenKind} {split : Split} {braces : List Bool}
    (hrest : lexer.rest = c :: cs)
    (h : TokenAt lexer.braces (regexAllowedAfter lexer.tokens.head?) c cs kind split braces) :
    lexer.takeToken source c cs = .ok { lexer.take kind split with braces } := by
  unfold Lexer.takeToken
  cases h with
  | name start =>
    rw [if_pos start, hrest]
    rfl
  | privateName hash start =>
    subst hash
    rw [if_neg (by decide), if_pos (by decide), if_pos start]
    rfl
  | number start other scan stop =>
    have hhash : ¬(c == '#') = true := by
      intro hhash
      rw [beq_iff_eq.1 hhash] at start
      exact absurd start (by simp [startsNumber])
    rw [if_neg (by rw [other]; nofun), if_neg hhash, if_pos (by exact start),
      Lexer.takeNumber, hrest, scan]
    dsimp only
    rw [if_neg (by rw [stop]; nofun)]
    rfl
  | string quote scan =>
    rcases quote with rfl | rfl
    all_goals
      rw [if_neg (by decide), if_neg (by decide), if_neg (by simp), if_pos (by decide), scan]
      rfl
  | template quote scan =>
    subst quote
    rw [if_neg (by decide), if_neg (by decide), if_neg (by simp), if_neg (by decide),
      if_pos (by decide)]
    exact takeTemplate_of_scan scan
  | resume brace inner scan =>
    subst brace
    rw [if_neg (by decide), if_neg (by decide), if_neg (by simp), if_neg (by decide),
      if_neg (by decide), if_neg (by simp)]
    unfold Lexer.takePunctuator
    rw [inner]
    exact takeTemplate_of_scan scan
  | regex slash opens scan =>
    subst slash
    rw [if_neg (by decide), if_neg (by decide), if_neg (by simp), if_neg (by decide),
      if_neg (by decide), if_pos (by simp [opens]), scan]
    rfl
  | punctuator other signs noNumber noRegex noTemplate scan =>
    simp only [contains_cons, contains_nil, Bool.or_false, Bool.or_eq_false_iff] at signs
    rw [if_neg (by rw [other]; nofun), if_neg (by simp [signs.1]),
      if_neg (by simpa [startsNumber] using noNumber), if_neg (by simp [signs.2.1, signs.2.2.1]),
      if_neg (by simp [signs.2.2.2]), if_neg (by simp [noRegex])]
    unfold Lexer.takePunctuator
    split
    case h_1 outer hbraces => exact absurd (by rw [hbraces]; rfl) (noTemplate rfl)
    case h_2 =>
      rw [hrest, scan]
      rfl

/-- The lexer after it took a piece. -/
def Lexer.after (lexer : Lexer) (piece : Piece) (rest : List Char) (braces : List Bool) : Lexer :=
  match piece with
  | .blank c =>
    { lexer.pass [c] rest with breakPending := lexer.breakPending || (Piece.blank c).breaks }
  | .comment kind text => lexer.takeComment kind kind.opening text kind.closing rest
  | .token kind text => { lexer.take kind (text, rest) with braces }

/-- A step of the lexer takes the piece at its place. -/
theorem pieceAt_of_step (hrest : lexer.rest = c :: cs) (h : lexer.step source c cs = .ok next) :
    ∃ piece rest braces, PieceAt lexer.braces (regexAllowedAfter lexer.tokens.head?) (c :: cs) piece
      rest braces ∧ next = lexer.after piece rest braces := by
  unfold Lexer.step at h
  split at h
  case isTrue hbreak =>
    cases h
    refine ⟨.blank c, cs, _, .blank (by simp [partsTokens, hbreak]), ?_⟩
    simp [Lexer.after, Piece.breaks, hbreak]
  case isFalse hbreak =>
  split at h
  case isTrue hblank =>
    cases h
    refine ⟨.blank c, cs, _, .blank (by simp [partsTokens, hblank]), ?_⟩
    simp [Lexer.after, Piece.breaks, Bool.eq_false_iff.2 hbreak, Lexer.pass]
  case isFalse hblank =>
  have hsolid : partsTokens c = false := by
    simp only [partsTokens, Bool.or_eq_false_iff]
    exact ⟨Bool.or_eq_false_iff.1 (Bool.eq_false_iff.2 hbreak), Bool.eq_false_iff.2 hblank⟩
  split at h
  case h_1 rest =>
    cases h
    exact ⟨_, _, _, .line, rfl⟩
  case h_2 rest =>
    split at h
    case h_1 => cases h
    case h_2 split hscan =>
      cases h
      obtain ⟨text, htext, -⟩ := (scanBlockComment_split hscan).2
      refine ⟨.comment .block text, split.2, _, .block ?_, ?_⟩
      · rw [hscan, ← htext]
      · rw [htext]
        simp [Lexer.after, CommentKind.opening, CommentKind.closing]
  case h_3 hline hblock =>
    obtain ⟨kind, split, braces, htoken, rfl⟩ := tokenAt_of_takeToken hrest h
    refine ⟨_, _, _, .token hsolid ?_ htoken, rfl⟩
    cases hcs : cs with
    | nil => simp [opensComment]
    | cons d rest =>
      simp only [opensComment, head?_cons, Bool.and_eq_false_iff, beq_eq_false_iff_ne]
      by_cases hc : c = '/'
      · refine .inr ?_
        simp only [Bool.or_eq_false_iff, beq_eq_false_iff_ne, ne_eq, Option.some.injEq]
        exact ⟨fun hd => hline rest hc (by rw [hcs, hd]), fun hd =>
          hblock rest hc (by rw [hcs, hd])⟩
      · exact .inl hc

/-- The lexer takes the piece at its place. -/
theorem step_of_pieceAt {piece : Piece} {rest : List Char} {braces : List Bool}
    (hrest : lexer.rest = c :: cs)
    (h : PieceAt lexer.braces (regexAllowedAfter lexer.tokens.head?) (c :: cs) piece rest braces) :
    lexer.step source c cs = .ok (lexer.after piece rest braces) := by
  unfold Lexer.step
  cases h with
  | blank parts =>
    by_cases hbreak : (c == '\n' || isSeparator c) = true
    · rw [if_pos hbreak]
      simp [Lexer.after, Piece.breaks, hbreak]
    · have hblank : isTokenBlank c = true := by
        simp only [partsTokens, Bool.eq_false_iff.2 hbreak, Bool.false_or] at parts
        exact parts
      rw [if_neg hbreak, if_pos hblank]
      simp [Lexer.after, Piece.breaks, Bool.eq_false_iff.2 hbreak, Lexer.pass]
  | line => rfl
  | block scan =>
    rw [if_neg (by decide), if_neg (by decide)]
    simp [scan, Lexer.after, CommentKind.opening, CommentKind.closing]
  | token solid plain here =>
    simp only [partsTokens, Bool.or_eq_false_iff] at solid
    rw [if_neg (by simp [solid.1.1, solid.1.2]), if_neg (by simp [solid.2])]
    split
    case h_1 => simp [opensComment] at plain
    case h_2 => simp [opensComment] at plain
    case h_3 => exact takeToken_of_tokenAt hrest here

section
variable {braces braces' : List Bool} {slashOpens : Bool}

variable {kind : TokenKind} {split : Split}

section
variable (h : TokenAt braces slashOpens c cs kind split braces')
include h

/-- A token and what follows it are the text at its place. -/
theorem TokenAt.split_append : split.1 ++ split.2 = c :: cs := by
  cases h with
  | name start => exact span_split _ _
  | privateName hash start => exact Split.prepend_split (span_split _ _)
  | number start other scan stop => exact (solidSplit_scanNumber scan).1
  | string quote scan => exact Split.prepend_split (scanString_split scan).1
  | template quote scan => exact Split.prepend_split (scanTemplate_split scan).1
  | resume brace inner scan => exact Split.prepend_split (scanTemplate_split scan).1
  | regex slash opens scan => exact Split.prepend_split (scanRegex_split scan).1
  | punctuator other signs noNumber noRegex noTemplate scan =>
    exact (scanPunctuator_split scan).1

/-- A token ends in a character that is no white space. -/
theorem TokenAt.endsSolid : EndsSolid split.1 := by
  cases h with
  | name start =>
    refine endsSolid_of_all ?_ fun d hd => isBlank_of_namePart (span_forall d hd)
    rw [scanName, span_cons (isNamePart_of_start start)]
    exact cons_ne_nil _ _
  | privateName hash start =>
    refine endsSolid_of_all (cons_ne_nil _ _) fun d hd => ?_
    rcases mem_cons.1 hd with rfl | hd
    · rw [hash]
      decide
    · exact isBlank_of_namePart (span_forall d hd)
  | number start other scan stop =>
    refine endsSolid_of_all (scanNumber_ne_nil ?_ scan) (solidSplit_scanNumber scan).2
    rcases Bool.or_eq_true_iff.1 start with h | h
    · exact .inl h
    · exact .inr (beq_iff_eq.1 (Bool.and_eq_true_iff.1 h).1)
  | string quote scan =>
    obtain ⟨front, hfront⟩ := (scanString_split scan).2
    refine ⟨c :: front, c, by rw [Split.prepend, hfront]; rfl, ?_⟩
    rcases quote with rfl | rfl <;> decide
  | template quote scan | resume brace inner scan =>
    obtain ⟨front, hfront⟩ := (scanTemplate_split scan).2
    rw [Split.prepend, hfront]
    refine EndsSolid.append (EndsSolid.append ?_ _) _
    split
    · exact ⟨['$'], '{', rfl, by decide⟩
    · exact ⟨[], '\x60', rfl, by decide⟩
  | regex slash opens scan => exact (scanRegex_split scan).2.append _
  | punctuator other signs noNumber noRegex noTemplate scan =>
    obtain ⟨p, hmem, hp, _⟩ := (scanPunctuator_split scan).2
    have hsolid := all_eq_true.1 punctuators_solid p hmem
    simp only [Bool.and_eq_true, all_eq_true] at hsolid
    rw [hp]
    refine endsSolid_of_all (fun hnil => ?_) fun d hd => by simpa using hsolid.1 d hd
    simp [String.toList_eq_nil_iff.1 hnil] at hsolid

/-- A token starts with the character at its place. -/
theorem TokenAt.starts : ∃ later, split.1 = c :: later := by
  have happend := h.split_append
  obtain ⟨front, last, hends, _⟩ := h.endsSolid
  cases hsplit : split.1 with
  | nil =>
    rw [hends] at hsplit
    exact absurd hsplit (by simp)
  | cons d later =>
    rw [hsplit] at happend
    cases happend
    exact ⟨later, rfl⟩

/-- No token is the end of the input, and template text has a sign at both ends. -/
theorem TokenAt.kind_facts : kind ≠ .endOfInput ∧ (kind = .template → 2 ≤ split.1.length) := by
  have hlength : ∀ {split : Split} {opens : Bool}, scanTemplate cs = some (split, opens) →
      2 ≤ (split.prepend [c]).1.length := by
    intro split opens hscan
    obtain ⟨front, hfront⟩ := (scanTemplate_split hscan).2
    rw [Split.prepend, hfront]
    cases opens <;> simp
  cases h with
  | template quote scan => exact ⟨by decide, fun _ => hlength scan⟩
  | resume brace inner scan => exact ⟨by decide, fun _ => hlength scan⟩
  | _ => refine ⟨?_, fun hkind => ?_⟩ <;> first | decide | cases hkind

end

/-- The text that starts with a piece is the piece and what follows it. -/
theorem PieceAt.chars_append {piece : Piece} {text rest : List Char}
    (h : PieceAt braces slashOpens text piece rest braces') : piece.chars ++ rest = text := by
  cases h with
  | blank parts => rfl
  | line => simp [Piece.chars, CommentKind.opening, CommentKind.closing]
  | block scan =>
    have := (scanBlockComment_split scan).1
    simpa [Piece.chars, CommentKind.opening, CommentKind.closing] using this
  | token solid plain here => exact here.split_append

/-- A piece has a character. -/
theorem PieceAt.chars_pos {piece : Piece} {text rest : List Char}
    (h : PieceAt braces slashOpens text piece rest braces') : 0 < piece.chars.length := by
  cases h with
  | blank parts => exact Nat.one_pos
  | line => simp [Piece.chars, CommentKind.opening]
  | block scan => simp [Piece.chars, CommentKind.opening]
  | token solid plain here =>
    obtain ⟨later, hlater⟩ := here.starts
    simp [Piece.chars, hlater]

end

section
variable {piece : Piece} {pieces : List Piece} {rest : List Char} {braces : List Bool}
  {final : Lexer}

/-- What follows a piece that was taken. -/
@[simp] theorem Lexer.rest_after : (lexer.after piece rest braces).rest = rest := by
  cases piece <;> rfl

/-- The place behind a piece that was taken. -/
@[simp] theorem Lexer.offset_after :
    (lexer.after piece rest braces).offset = lexer.offset + piece.chars.length := by
  cases piece <;> rfl

/-- Only a token decides anew whether a slash opens a regular expression. -/
@[simp] theorem Lexer.regexAllowed_after :
    regexAllowedAfter (lexer.after piece rest braces).tokens.head? =
      piece.slashOpens (regexAllowedAfter lexer.tokens.head?) := by
  cases piece with
  | blank c => rfl
  | comment kind text => rfl
  | token kind text => cases kind <;> rfl

variable {slashOpens : Bool} {text : List Char}

/-- Only a token opens or closes braces. -/
theorem PieceAt.braces_after (h : PieceAt lexer.braces slashOpens text piece rest braces) :
    (lexer.after piece rest braces).braces = braces := by
  cases h <;> rfl

/-- What the lexer has found at the end, given the pieces that it took from its place on. -/
structure Follows (lexer : Lexer) (pieces : List Piece) (final : Lexer) : Prop where
  offset : final.offset = lexer.offset + lexer.rest.length
  tokens : final.tokens.reverse.map Token.facts =
    lexer.tokens.reverse.map Token.facts ++ tokensFrom lexer.offset lexer.breakPending pieces
  comments : final.comments.reverse.map Comment.facts =
    lexer.comments.reverse.map Comment.facts ++ commentsFrom lexer.offset pieces
  breakPending : final.breakPending = breakAfter lexer.breakPending pieces

theorem Follows.nil (h : lexer.rest = []) : Follows lexer [] lexer :=
  ⟨by rw [h]; rfl, (append_nil _).symm, (append_nil _).symm, rfl⟩

/-- One piece more. -/
theorem Follows.cons (hchars : piece.chars ++ rest = lexer.rest)
    (h : Follows (lexer.after piece rest braces) pieces final) :
    Follows lexer (piece :: pieces) final := by
  refine ⟨?_, ?_, ?_, ?_⟩
  · rw [h.offset, Lexer.offset_after, Lexer.rest_after, ← hchars, length_append, Nat.add_assoc]
  · rw [h.tokens, Lexer.offset_after]
    cases piece with
    | blank c => rfl
    | comment kind text => rfl
    | token kind text =>
      simp [Lexer.after, Lexer.take, tokensFrom, Piece.chars, Token.facts, Lexer.tokenHere]
  · rw [h.comments, Lexer.offset_after]
    cases piece with
    | blank c => rfl
    | token kind text => rfl
    | comment kind text =>
      simp [Lexer.after, Lexer.takeComment, commentsFrom, Piece.chars, Comment.facts]
  · rw [h.breakPending]
    cases piece <;> rfl

/-- What follows a piece is shorter by a step at least. -/
theorem PieceAt.rest_length_le {steps : Nat} {braces' : List Bool}
    (h : PieceAt braces slashOpens text piece rest braces') (hsteps : text.length ≤ steps + 1) :
    rest.length ≤ steps := by
  have hlength := congrArg List.length h.chars_append
  have hpos := h.chars_pos
  rw [length_append] at hlength
  omega

/-- The lexer's run takes the pieces that the text falls into. -/
theorem lexes_of_run : ∀ {steps : Nat} {lexer final : Lexer}, lexer.rest.length ≤ steps →
    Lexer.run source steps lexer = .ok final → ∃ pieces,
      Lexes lexer.braces (regexAllowedAfter lexer.tokens.head?) lexer.rest pieces ∧
        Follows lexer pieces final := by
  intro steps
  induction steps with
  | zero =>
    intro lexer final hsteps h
    have hrest := length_eq_zero_iff.1 (Nat.le_zero.1 hsteps)
    cases h
    rw [hrest]
    exact ⟨[], .done, Follows.nil hrest⟩
  | succ steps ih =>
    intro lexer final hsteps h
    unfold Lexer.run at h
    split at h
    case h_1 hrest =>
      cases h
      rw [hrest]
      exact ⟨[], .done, Follows.nil hrest⟩
    case h_2 c cs hrest =>
      split at h
      case h_1 => cases h
      case h_2 next hstep =>
        obtain ⟨piece, rest, braces, hpiece, rfl⟩ := pieceAt_of_step hrest hstep
        rw [← hrest] at hpiece
        have hrest' := hpiece.rest_length_le hsteps
        obtain ⟨pieces, hlexes, hfollows⟩ := ih (by rwa [Lexer.rest_after]) h
        rw [Lexer.rest_after, hpiece.braces_after, Lexer.regexAllowed_after] at hlexes
        exact ⟨piece :: pieces, .step hpiece hlexes, hfollows.cons hpiece.chars_append⟩

/-- The lexer takes the pieces that its text falls into. -/
theorem run_of_lexes (h : Lexes braces slashOpens text pieces) :
    ∀ {steps : Nat} {lexer : Lexer}, lexer.rest = text → lexer.braces = braces →
      regexAllowedAfter lexer.tokens.head? = slashOpens → text.length ≤ steps →
      ∃ final, Lexer.run source steps lexer = .ok final ∧ Follows lexer pieces final := by
  induction h with
  | done =>
    intro steps lexer hrest _ _ _
    refine ⟨lexer, ?_, Follows.nil hrest⟩
    cases steps with
    | zero => rfl
    | succ steps =>
      unfold Lexer.run
      rw [hrest]
  | @step braces braces' slashOpens text rest piece pieces here later ih =>
    intro steps lexer hrest hbraces hslash hsteps
    have happend := here.chars_append
    have hpos := here.chars_pos
    cases steps with
    | zero =>
      rw [length_eq_zero_iff.1 (Nat.le_zero.1 hsteps), append_eq_nil_iff] at happend
      rw [happend.1] at hpos
      cases hpos
    | succ steps =>
      have hsteps' := here.rest_length_le hsteps
      cases text with
      | nil =>
        rw [(append_eq_nil_iff.1 happend).1] at hpos
        cases hpos
      | cons c cs =>
        rw [← hbraces, ← hslash] at here
        obtain ⟨final, hrun, hfollows⟩ := ih Lexer.rest_after here.braces_after
          (Lexer.regexAllowed_after.trans (by rw [hslash])) hsteps'
        refine ⟨final, ?_, hfollows.cons (happend.trans hrest.symm)⟩
        unfold Lexer.run
        rw [hrest]
        dsimp only
        rw [step_of_pieceAt hrest here]
        exact hrun

end

/-- What the lexer gives for a source that falls into pieces. -/
structure Lexed.Shows (lexed : Lexed) (source : List Char) (pieces : List Piece) : Prop where
  tokens : lexed.tokens.map Token.facts = tokensFrom 0 false pieces
  comments : lexed.comments.map Comment.facts = commentsFrom 0 pieces
  endToken : lexed.endToken.facts =
    ⟨.endOfInput, "", ⟨source.length, source.length⟩, breakAfter false pieces, none⟩

variable {pieces : List Piece}

/-- What is found from the start of a source is what the lexer gives. -/
theorem Follows.shows {final : Lexer} (h : Follows { rest := source } pieces final) :
    Lexed.Shows
      { tokens := final.tokens.reverse
        endToken := final.tokenHere .endOfInput []
        comments := final.comments.reverse } source pieces := by
  refine ⟨h.tokens, h.comments, ?_⟩
  simp [Token.facts, Lexer.tokenHere, h.offset, h.breakPending]

/-- A source without hashbang line is read from its start. -/
theorem start_plain (h : ¬['#', '!'] <+: source) : Lexer.start source = { rest := source } := by
  unfold Lexer.start
  split
  case h_1 cs => exact absurd ⟨cs, rfl⟩ h
  case h_2 => rfl

/-- The characters of a hashbang line. -/
theorem hashbang_append (cs : List Char) :
    (Piece.comment .hashbang (cs.span (· != '\n')).1).chars ++ (cs.span (· != '\n')).2 =
      '#' :: '!' :: cs := by
  simp [Piece.chars, CommentKind.opening, CommentKind.closing]

/-- What follows a hashbang line is no longer than the source. -/
theorem rest_start_hashbang_le (cs : List Char) :
    (Lexer.start ('#' :: '!' :: cs)).rest.length ≤ ('#' :: '!' :: cs).length := by
  have hlength := congrArg List.length (hashbang_append cs)
  rw [length_append] at hlength
  exact Nat.le.intro ((Nat.add_comm _ _).trans hlength)

/-- A hashbang line is the first piece of its source. -/
theorem Follows.hashbang {final : Lexer}
    (h : Follows (Lexer.start ('#' :: '!' :: cs)) pieces final) :
    Follows { rest := '#' :: '!' :: cs }
      (.comment .hashbang (cs.span (· != '\n')).1 :: pieces) final := by
  have hafter : Lexer.start ('#' :: '!' :: cs) = Lexer.after { rest := '#' :: '!' :: cs }
      (.comment .hashbang (cs.span (· != '\n')).1) (cs.span (· != '\n')).2 [] := rfl
  rw [hafter] at h
  exact h.cons (hashbang_append cs)

/-- The lexer gives what the pieces of the source show. -/
theorem lexesSource_of_lex {lexed : Lexed} (h : lex source = .ok lexed) :
    ∃ pieces, LexesSource source pieces ∧ lexed.Shows source pieces := by
  unfold lex at h
  split at h
  case h_1 => cases h
  case h_2 final hrun =>
  cases h
  by_cases hstart : ['#', '!'] <+: source
  · obtain ⟨cs, rfl⟩ := hstart
    obtain ⟨pieces, hlexes, hfollows⟩ := lexes_of_run (rest_start_hashbang_le cs) hrun
    exact ⟨_, .hashbang hlexes, hfollows.hashbang.shows⟩
  · rw [start_plain hstart] at hrun
    have hsteps : ({ rest := source } : Lexer).rest.length ≤ source.length := Nat.le_refl _
    obtain ⟨pieces, hlexes, hfollows⟩ := lexes_of_run hsteps hrun
    exact ⟨pieces, .plain hstart hlexes, hfollows.shows⟩

/-- The lexer takes a source that falls into pieces. -/
theorem lex_of_lexesSource (h : LexesSource source pieces) :
    ∃ lexed, lex source = .ok lexed ∧ lexed.Shows source pieces := by
  suffices ∃ final, Lexer.run source source.length (Lexer.start source) = .ok final ∧
      Follows { rest := source } pieces final by
    obtain ⟨final, hrun, hfollows⟩ := this
    refine ⟨_, ?_, hfollows.shows⟩
    rw [lex, hrun]
  cases h with
  | @hashbang cs pieces rest =>
    have hrest : (Lexer.start ('#' :: '!' :: cs)).rest = (cs.span (· != '\n')).2 := rfl
    obtain ⟨final, hrun, hfollows⟩ := run_of_lexes rest hrest rfl rfl (rest_start_hashbang_le cs)
    exact ⟨final, hrun, hfollows.hashbang⟩
  | plain start rest =>
    rw [start_plain start]
    exact run_of_lexes rest rfl rfl rfl (Nat.le_refl _)

end

end DocTypes
