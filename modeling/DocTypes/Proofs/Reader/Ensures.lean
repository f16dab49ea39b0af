import DocTypes.Proofs.Reader.Placed

/-!
# What a reader ensures

`Ensures reader cursor post` says that whenever the reader succeeds from a cursor, `post` holds of
its answer and of the cursor it leaves, and whenever it fails, the fault lies in the source: the
reader neither takes a token after the last nor goes on without taking one. Readers are followed
step by step with `Ensures.bind`; readers that only look (`start`, `current`, `isAt`, `peek`) are
passed by the rewriting lemmas `ensures_…_bind`.

A `Sound` cursor has its pending tokens in source order behind what was taken, and stands behind no
token or behind the end of one. `Cursor.To` leads from one cursor to a later one. `Reads` is what a
production for one node ensures: the cursor moved on, by at least one token, and the node fits
between the two places.
-/

namespace DocTypes

/-- A token whose span is as long as its text, which is not empty. Template text has its opening
and its closing sign. -/
structure Token.Solid (token : Token) : Prop where
  length : token.span.stop = token.span.start + token.text.toList.length
  ne_nil : token.text.toList ≠ []
  template : token.kind = .template → 2 ≤ token.text.toList.length

/-- Tokens in source order between two offsets. -/
def TokenRun : Nat → List Token → Nat → Prop
  | low, [], high => low ≤ high
  | low, token :: rest, high => low ≤ token.span.start ∧ TokenRun token.span.stop rest high

/-- The tokens of a source in their order, with the token at the end behind them. -/
structure Lexed.Ordered (lexed : Lexed) : Prop where
  solid : ∀ token ∈ lexed.tokens, token.Solid
  run : TokenRun 0 lexed.tokens lexed.endToken.span.start
  endKind : lexed.endToken.kind = .endOfInput
  kinds : ∀ token ∈ lexed.tokens, token.kind ≠ .endOfInput

/-- The position is that of an offset of the source. -/
def Position.LiesIn (source : List Char) (position : Position) : Prop :=
  ∃ offset ≤ source.length, position = positionAt source offset

/-- An offset after the end has the position of the end. -/
theorem liesIn_positionAt (source : List Char) (offset : Nat) :
    (positionAt source offset).LiesIn source := by
  refine ⟨min offset source.length, Nat.min_le_right _ _, ?_⟩
  rw [positionAt, positionAt, List.take_eq_take_min]

/-- The tokens of a source have the positions where they start. -/
def Lexed.Located (lexed : Lexed) (source : List Char) : Prop :=
  ∀ token ∈ lexed.allTokens, token.position = positionAt source token.span.start

/-- The fault lies in the source, and is reported at an offset of it. The other faults mean that the
reader did not take what it had to. -/
def ReadFault.LiesIn (source : List Char) : ReadFault → Prop
  | .grammar _ position => position.LiesIn source
  | .literal _ | .namelessKey => True
  | .pastEnd | .stalled => False

/-- A token takes up at least one character. -/
theorem Token.Solid.lt {token : Token} (h : token.Solid) : token.span.start < token.span.stop := by
  have := List.length_pos_iff.2 h.ne_nil
  rw [h.length]
  omega

/-- The offsets of tokens in order are in order. -/
theorem TokenRun.le : ∀ {tokens : List Token} {low high : Nat},
    (∀ token ∈ tokens, token.Solid) → TokenRun low tokens high → low ≤ high
  | [], _, _, _, h => h
  | token :: rest, low, high, hs, h => by
    have h1 := (hs token (.head _)).lt
    have h2 := TokenRun.le (fun t ht => hs t (.tail _ ht)) h.2
    have := h.1
    omega

namespace Cursor

/-- The next token. -/
def next (cursor : Cursor) : Token :=
  cursor.pending.head?.getD cursor.endToken

/-- Where the next token starts. -/
def front (cursor : Cursor) : Nat :=
  cursor.next.span.start

/-- A cursor over the tokens of a source, which are in order, and those that are pending stand
behind what was taken. -/
def Sound (lexed : Lexed) (cursor : Cursor) : Prop :=
  cursor.endToken = lexed.endToken ∧ (∀ token ∈ cursor.pending, token ∈ lexed.tokens) ∧
    (cursor.lastEnd = 0 ∨ TokenStops lexed.tokens cursor.lastEnd) ∧
    TokenRun cursor.lastEnd cursor.pending lexed.endToken.span.start ∧ lexed.Ordered ∧
    lexed.Located cursor.source

/-- The cursor may move from here to there. -/
def To (lexed : Lexed) (cursor cursor' : Cursor) : Prop :=
  cursor'.Sound lexed ∧ cursor.front ≤ cursor'.front ∧ cursor.lastEnd ≤ cursor'.lastEnd ∧
    cursor'.pending <:+ cursor.pending

end Cursor

namespace TreeReader

/-- Whenever `reader` succeeds from `cursor`, `post` holds of what it gives. -/
def Grants {α : Type} (reader : TreeReader α) (cursor : Cursor) (post : α → Cursor → Prop) : Prop :=
  ∀ result next, reader cursor = .ok (result, next) → post result next

/-- Whenever `reader` succeeds from `cursor`, `post` holds of what it gives. Whenever it fails, the
fault lies in the source. -/
def Ensures {α : Type} (reader : TreeReader α) (cursor : Cursor) (post : α → Cursor → Prop) :
    Prop :=
  match reader cursor with
  | .ok (result, next) => next.source = cursor.source ∧ post result next
  | .error fault => fault.LiesIn cursor.source

section
variable {α β : Type} {reader : TreeReader α} {cursor : Cursor} {post : α → Cursor → Prop}

variable {next : α → TreeReader β} {post' : β → Cursor → Prop}

/-- One reader after another. -/
theorem Ensures.bind (h : Ensures reader cursor post)
    (hnext : ∀ result cursor', post result cursor' → Ensures (next result) cursor' post') :
    Ensures (reader >>= next) cursor post' := by
  rw [Ensures] at h
  rw [Ensures, show (reader >>= next) cursor = (reader cursor >>= fun p => next p.1 p.2) from rfl]
  cases hreader : reader cursor with
  | error fault =>
    rw [hreader] at h
    exact h
  | ok p =>
    rw [hreader] at h
    have hp := hnext p.1 p.2 h.2
    rw [Ensures, h.1] at hp
    exact hp

/-- What is ensured may be weakened. -/
theorem Ensures.imp {post' : α → Cursor → Prop} (h : Ensures reader cursor post)
    (himp : ∀ result cursor', post result cursor' → post' result cursor') :
    Ensures reader cursor post' := by
  rw [Ensures] at h ⊢
  split at h
  · exact ⟨h.1, himp _ _ h.2⟩
  · exact h

/-- What holds besides whenever the reader succeeds. -/
theorem Ensures.and {post' : α → Cursor → Prop} (h : Ensures reader cursor post)
    (h' : Grants reader cursor post') :
    Ensures reader cursor fun result cursor' => post result cursor' ∧ post' result cursor' := by
  rw [Ensures] at h ⊢
  split at h
  · exact ⟨h.1, h.2, h' _ _ ‹_›⟩
  · exact h

/-- What is ensured holds whenever the reader succeeds, and the source stays. -/
theorem Ensures.grants (h : Ensures reader cursor post) :
    Grants reader cursor fun result cursor' => cursor'.source = cursor.source ∧
      post result cursor' := by
  intro result next hrun
  rw [Ensures, hrun] at h
  exact h

/-- What the last reader grants from everywhere. -/
theorem grants_bind_last (hnext : ∀ result cursor', Grants (next result) cursor' post') :
    Grants (reader >>= next) cursor post' := by
  intro result last hrun
  change (reader cursor >>= fun p => next p.1 p.2) = _ at hrun
  cases hreader : reader cursor with
  | error fault =>
    rw [hreader] at hrun
    cases hrun
  | ok p =>
    rw [hreader] at hrun
    exact hnext p.1 p.2 result last hrun

/-- A reader that gives a value ensures what holds of it. -/
theorem ensures_pure {value : α} (h : post value cursor) :
    Ensures (pure value : TreeReader α) cursor post :=
  ⟨rfl, h⟩

/-- A reader that fails ensures anything, if the fault lies in the source. -/
theorem ensures_throw {fault : ReadFault} (h : fault.LiesIn cursor.source) :
    Ensures (throw fault : TreeReader α) cursor post :=
  h

/-- A choice ensures what both ways ensure. -/
theorem ensures_ite {p : Prop} [Decidable p] {no : TreeReader α}
    (hyes : p → Ensures reader cursor post) (hno : ¬p → Ensures no cursor post) :
    Ensures (if p then reader else no) cursor post := by
  split
  · exact hyes ‹_›
  · exact hno ‹_›

/-- A choice between two readers with the same continuation. -/
theorem ensures_choice {p : Prop} [Decidable p] {no : TreeReader α}
    (hyes : p → Ensures reader cursor post) (hno : ¬p → Ensures no cursor post)
    (hnext : ∀ result cursor', post result cursor' → Ensures (next result) cursor' post') :
    Ensures (if p then reader >>= next else no >>= next) cursor post' :=
  ensures_ite (fun h => (hyes h).bind hnext) fun h => (hno h).bind hnext

/-- A reader of a known answer is passed by its answer. -/
theorem ensures_bind_of_eq {value : α} (h : reader cursor = .ok (value, cursor)) :
    Ensures (reader >>= next) cursor post' ↔ Ensures (next value) cursor post' := by
  have heq : (reader >>= next) cursor = next value cursor := by
    change (reader cursor >>= fun p => next p.1 p.2) = _
    rw [h]
    rfl
  simp only [Ensures, heq]

theorem ensures_get_bind {next : Cursor → TreeReader β} :
    Ensures (get >>= next) cursor post' ↔ Ensures (next cursor) cursor post' :=
  ensures_bind_of_eq rfl

/-- Looking ahead gives a token. -/
theorem ensures_peek_bind {next : Token → TreeReader β} {ahead : Nat} :
    Ensures (peek ahead >>= next) cursor post' ↔
      Ensures (next (cursor.pending[ahead]?.getD cursor.endToken)) cursor post' :=
  ensures_bind_of_eq rfl

/-- Looking at the next token gives it. -/
theorem ensures_current_bind {next : Token → TreeReader β} :
    Ensures (current >>= next) cursor post' ↔ Ensures (next cursor.next) cursor post' := by
  refine ensures_bind_of_eq ?_
  rw [Cursor.next, List.head?_eq_getElem?]
  rfl

/-- The start of the next token is the cursor's front. -/
theorem ensures_start_bind {next : Nat → TreeReader β} :
    Ensures (start >>= next) cursor post' ↔ Ensures (next cursor.front) cursor post' := by
  refine ensures_bind_of_eq ?_
  rw [Cursor.front, Cursor.next, List.head?_eq_getElem?]
  rfl

/-- Asking for the next token's text looks at it. -/
theorem ensures_isAt_bind {next : Bool → TreeReader β} {text : String} :
    Ensures (isAt text >>= next) cursor post' ↔
      Ensures (next (cursor.next.is text)) cursor post' := by
  refine ensures_bind_of_eq ?_
  rw [Cursor.next, List.head?_eq_getElem?]
  rfl

/-- Asking for the next token's kind looks at it. -/
theorem ensures_isAtKind_bind {next : Bool → TreeReader β} {kind : TokenKind} :
    Ensures (isAtKind kind >>= next) cursor post' ↔
      Ensures (next (cursor.next.kind == kind)) cursor post' := by
  refine ensures_bind_of_eq ?_
  rw [Cursor.next, List.head?_eq_getElem?]
  rfl

end

end TreeReader

end DocTypes
