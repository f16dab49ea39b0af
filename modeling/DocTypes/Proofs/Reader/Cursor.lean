import DocTypes.Proofs.Reader.Ensures

/-!
# The cursor's primitives

What the small readers of `Tree.Reader.Cursor` ensure: taking a token moves the cursor behind it,
looking moves nothing, and a node that is closed here fits between its start and the last token
taken (`ensures_finish`). `ensures_many` is the rule for repeated rounds, each of which takes a
token or is the last one, and `ensures_stepping` that for repeated steps.
-/

namespace DocTypes

namespace Cursor

section
variable {lexed : Lexed} {cursor cursor' cursor'' : Cursor}

section
variable (h : cursor.Sound lexed)
include h

/-- What was taken ends before the next token starts. -/
theorem Sound.gap : cursor.lastEnd ≤ cursor.front := by
  obtain ⟨hend, _, _, hrun, _, _⟩ := h
  cases hpending : cursor.pending with
  | nil =>
    rw [hpending] at hrun
    simpa [front, next, hpending, hend, TokenRun] using hrun
  | cons token rest =>
    rw [hpending] at hrun
    simpa [front, next, hpending] using hrun.1

theorem Sound.ordered : lexed.Ordered := h.2.2.2.2.1

/-- The next token is a token of the source, or the end. -/
theorem Sound.next_mem : cursor.next ∈ lexed.allTokens := by
  rw [next, Lexed.allTokens]
  cases hpending : cursor.pending with
  | nil => exact List.mem_append_right _ (List.mem_singleton.2 h.1)
  | cons token rest =>
    exact List.mem_append_left _ (h.2.1 token (by rw [hpending]; exact .head _))

theorem Sound.to : cursor.To lexed cursor :=
  ⟨h, Nat.le_refl _, Nat.le_refl _, List.suffix_refl _⟩

end

section
variable (h : cursor.To lexed cursor')
include h

theorem To.sound : cursor'.Sound lexed := h.1

theorem To.front_le : cursor.front ≤ cursor'.front := h.2.1

theorem To.last_le : cursor.lastEnd ≤ cursor'.lastEnd := h.2.2.1

theorem To.gap : cursor'.lastEnd ≤ cursor'.front := h.1.gap

theorem To.trans (h' : cursor'.To lexed cursor'') : cursor.To lexed cursor'' :=
  ⟨h'.1, Nat.le_trans h.2.1 h'.2.1, Nat.le_trans h.last_le h'.last_le, h'.2.2.2.trans h.2.2.2⟩

/-- Where tokens were taken fewer are pending. -/
theorem To.left_lt (hs : cursor.Sound lexed)
    (hlt : cursor.front < cursor'.lastEnd) : cursor'.left < cursor.left := by
  refine Nat.lt_of_le_of_ne h.2.2.2.length_le fun hlength => ?_
  have hfront : cursor'.front = cursor.front := by
    rw [front, next, front, next, h.2.2.2.eq_of_length hlength, h.1.1, hs.1]
  have hgap := h.gap
  omega

end

/-- The next token of a cursor with pending tokens is the first of them. -/
theorem next_eq_head {token : Token} {rest : List Token} (h : cursor.pending = token :: rest) :
    cursor.next = token := by
  rw [next, h]
  rfl

/-- A next token that is not the end of the input is pending. -/
theorem Sound.pending_of_kind (h : cursor.Sound lexed)
    (hkind : cursor.next.kind ≠ .endOfInput) :
    ∃ token rest, cursor.pending = token :: rest ∧ cursor.next = token := by
  cases hpending : cursor.pending with
  | nil =>
    refine absurd ?_ hkind
    rw [next, hpending, h.1]
    exact h.ordered.endKind
  | cons token rest => exact ⟨token, rest, rfl, next_eq_head hpending⟩

/-- A next token with a word's or a punctuator's text is not the end of the input. -/
theorem kind_of_is {token : Token} {text : String} (h : token.is text = true) :
    token.kind ≠ .endOfInput := by
  intro hkind
  simp [Token.is, hkind] at h

/-- At the end of the input no token follows. -/
theorem Sound.not_lt_of_nil (h : cursor.Sound lexed)
    (h' : cursor'.Sound lexed) (hnil : cursor.pending = []) :
    ¬cursor.front < cursor'.lastEnd := by
  have hfront : cursor.front = lexed.endToken.span.start := by
    rw [front, next, hnil, h.1]
    rfl
  have hle := TokenRun.le (fun token ht => h.ordered.solid token (h'.2.1 token ht)) h'.2.2.2.1
  omega

/-- Where the next token starts a token starts, if tokens were taken from there on. -/
theorem Sound.starts (h : cursor.Sound lexed)
    (hto : cursor.To lexed cursor') (hlt : cursor.front < cursor'.lastEnd) :
    TokenStarts lexed.tokens cursor.front := by
  cases hpending : cursor.pending with
  | nil => exact absurd hlt (h.not_lt_of_nil hto.sound hpending)
  | cons token rest =>
    refine ⟨token, h.2.1 token (by rw [hpending]; exact .head _), ?_⟩
    rw [front, next_eq_head hpending]

/-- Where the last token taken ends a token ends, if any was taken. -/
theorem Sound.stops (h : cursor.Sound lexed) (hpos : 0 < cursor.lastEnd) :
    TokenStops lexed.tokens cursor.lastEnd := by
  rcases h.2.2.1 with h0 | h
  · omega
  · exact h

end

end Cursor

namespace TreeReader

section
variable {lexed : Lexed} {cursor : Cursor} {α β : Type}

/-- What a reader of the rest of a node that started at `start` ensures from `cursor`: its node
fits between its start and where the reader ended. -/
def ReadsFrom (lexed : Lexed) (start : Nat) (cursor : Cursor) (node : Node)
    (cursor' : Cursor) : Prop :=
  cursor.To lexed cursor' ∧ start < cursor'.lastEnd ∧ node.kind.isForm = true ∧
    Fits lexed.tokens start cursor'.lastEnd node

/-- What a reader of one node ensures from `cursor`: it takes a token at least, and its node fits
between where it started and where it ended. -/
def Reads (lexed : Lexed) (cursor : Cursor) (node : Node) (cursor' : Cursor) :
    Prop :=
  ReadsFrom lexed cursor.front cursor node cursor'

/-- What a reader of several values ensures from `cursor`: they stand in a row behind what was
taken before. -/
def Spread (lexed : Lexed) (cursor : Cursor) (values : List Value)
    (cursor' : Cursor) : Prop :=
  cursor.To lexed cursor' ∧ Row lexed.tokens cursor.lastEnd values cursor'.lastEnd

/-- A reader that takes a token at least. -/
def Moves (lexed : Lexed) (cursor cursor' : Cursor) : Prop :=
  cursor.To lexed cursor' ∧ cursor.front < cursor'.lastEnd

/-- A reader that takes one token. -/
def Took (lexed : Lexed) (cursor : Cursor) (token : Token)
    (cursor' : Cursor) : Prop :=
  Moves lexed cursor cursor' ∧ token ∈ lexed.tokens ∧ token.span.start = cursor.front ∧
    token.span.stop = cursor'.lastEnd

/-- What was read since the cursor stood at `before`: tokens, and values in a row. -/
def Since (lexed : Lexed) (before : Cursor) (values : List Value)
    (cursor : Cursor) : Prop :=
  before.To lexed cursor ∧ before.front < cursor.lastEnd ∧
    Row lexed.tokens before.front values cursor.lastEnd

theorem get_bind_eq {α : Type} (next : Cursor → TreeReader α) :
    (get >>= next) cursor = next cursor cursor :=
  rfl

variable {token : Token} {post : α → Cursor → Prop} {kind : Kind} {fields : List (Field × Value)}
  {start : Nat} {cursor' : Cursor} {reader : TreeReader α} {node : Node}

/-- Taking the next token moves behind it. -/
theorem advance_eq {rest : List Token} (h : cursor.pending = token :: rest) :
    advance cursor = .ok (token, { cursor with pending := rest, lastEnd := token.span.stop }) := by
  rw [advance, get_bind_eq, h]
  rfl

/-- Taking the next token ensures that the cursor stands behind it. -/
theorem ensures_advance (h : cursor.Sound lexed)
    (hkind : cursor.next.kind ≠ .endOfInput) :
    Ensures advance cursor fun token cursor' =>
      Took lexed cursor token cursor' ∧ token = cursor.next := by
  obtain ⟨token, rest, hpending, hnext⟩ := h.pending_of_kind hkind
  rw [Ensures, advance_eq hpending]
  obtain ⟨hend, hmem, hlast, hruns, hl⟩ := h
  rw [hpending] at hmem hruns
  have htoken := hmem token (.head _)
  have hlt := (hl.1.solid token htoken).lt
  have hsound : Cursor.Sound lexed
      { cursor with pending := rest, lastEnd := token.span.stop } :=
    ⟨hend, fun t ht => hmem t (.tail _ ht), .inr ⟨token, htoken, rfl⟩, hruns.2, hl⟩
  have hfront : cursor.front = token.span.start := by rw [Cursor.front, hnext]
  have hgap := hsound.gap
  refine ⟨rfl, ⟨⟨⟨hsound, ?_, ?_, ?_⟩, ?_⟩, htoken, hfront.symm, rfl⟩, hnext.symm⟩
  · exact Nat.le_trans (by rw [hfront]; exact Nat.le_of_lt hlt) hgap
  · exact Nat.le_trans hruns.1 (Nat.le_of_lt hlt)
  · rw [hpending]
    exact List.suffix_cons token rest
  · rw [hfront]
    exact hlt

/-- Passing over the next token moves behind it. -/
theorem ensures_skip (h : cursor.Sound lexed)
    (hkind : cursor.next.kind ≠ .endOfInput) :
    Ensures skip cursor fun _ cursor' => Took lexed cursor cursor.next cursor' := by
  refine (ensures_advance h hkind).bind ?_
  rintro _ cursor' ⟨htook, rfl⟩
  exact ensures_pure htook

/-- Taking the next token, or nothing at the end of the input. -/
theorem ensures_advance_any (h : cursor.Sound lexed) :
    Ensures advance cursor fun token cursor' => cursor.To lexed cursor' ∧
      (Took lexed cursor token cursor' ∨ cursor'.pending = []) := by
  cases hpending : cursor.pending with
  | nil =>
    rw [Ensures, advance, get_bind_eq, hpending]
    exact ⟨rfl, h.to, .inr hpending⟩
  | cons token rest =>
    refine (ensures_advance h ?_).imp fun _ _ hpost => ⟨hpost.1.1.1, .inl hpost.1⟩
    rw [Cursor.next_eq_head hpending]
    exact h.ordered.kinds token (h.2.1 token (by rw [hpending]; exact .head _))

/-- Passing over the next token, or over nothing at the end of the input. -/
theorem ensures_skip_any (h : cursor.Sound lexed) :
    Ensures skip cursor fun _ cursor' => cursor.To lexed cursor' :=
  (ensures_advance_any h).bind fun _ _ hpost => ensures_pure hpost.1

variable {next : Unit → TreeReader α} {inner : Scope → Scope}

section
variable (h : cursor.Sound lexed)
include h

/-- Passing over the next token, or not. -/
theorem ensures_skip_if {b : Bool}
    (hnext : ∀ cursor', cursor.To lexed cursor' → Ensures (next ()) cursor' post) :
    Ensures (if b = true then skip >>= next else next ()) cursor post :=
  ensures_ite (fun _ => (ensures_skip_any h).bind fun _ cursor' hto => hnext cursor' hto)
    fun _ => hnext cursor h.to

/-- Taking a word or punctuator if it is next. -/
theorem ensures_eat (text : String) :
    Ensures (eat text) cursor fun taken cursor' => cursor.To lexed cursor' ∧
      (taken = true → cursor.front < cursor'.lastEnd) ∧ (taken = false → cursor' = cursor) := by
  refine ensures_isAt_bind.2 (ensures_ite (fun his => ?_) fun _ => ?_)
  · obtain ⟨token, rest, hpending, -⟩ := h.pending_of_kind (Cursor.kind_of_is his)
    have hleft : ¬((cursor.left == 0) = true) := by simp [Cursor.left, hpending]
    refine ensures_get_bind.2 (ensures_ite (fun hnone => absurd hnone hleft) fun _ => ?_)
    refine (ensures_skip h (Cursor.kind_of_is his)).bind fun _ cursor' hpost => ?_
    exact ensures_pure ⟨hpost.1.1, fun _ => hpost.1.2, nofun⟩
  · exact ensures_pure ⟨h.to, nofun, fun _ => rfl⟩

/-- Failing at the next token ensures anything. -/
theorem ensures_fail {cause : GrammarCause} : Ensures (fail cause) cursor post := by
  refine ensures_current_bind.2 (ensures_throw ?_)
  rw [h.2.2.2.2.2 _ h.next_mem]
  exact liesIn_positionAt _ _

/-- Taking a word or punctuator that has to be next moves behind it. -/
theorem ensures_expect (text : String) :
    Ensures (expect text) cursor fun _ cursor' => Moves lexed cursor cursor' := by
  refine (ensures_eat h text).bind fun taken cursor' hpost => ?_
  cases taken with
  | true => exact ensures_pure ⟨hpost.1, hpost.2.1 rfl⟩
  | false => exact ensures_current_bind.2 (ensures_fail hpost.1.1)

end

/-- A check that has to hold is passed with what it checks. -/
theorem ensures_guard {b : Bool} {cause : GrammarCause} (hs : cursor.Sound lexed)
    (h : b = false → Ensures (next ()) cursor post) :
    Ensures (if b = true then fail cause >>= next else next ()) cursor post := by
  refine ensures_ite (fun _ => ?_) fun hb => h (by simpa using hb)
  have hfail : Ensures (fail cause : TreeReader Unit) cursor fun _ _ => False := ensures_fail hs
  exact hfail.bind fun _ _ hfalse => hfalse.elim

/-- Taking a name that has to be next. -/
theorem ensures_expectName (h : cursor.Sound lexed) :
    Ensures expectName cursor (Took lexed cursor) := by
  refine ensures_current_bind.2 (ensures_guard h fun hkind => ?_)
  have hname : cursor.next.kind = .name := by simpa using hkind
  exact (ensures_advance h (by rw [hname]; nofun)).imp fun _ _ hpost => hpost.1

/-- A new node has the next number, and nothing else changes. -/
theorem ensures_make {span : Span} :
    Ensures (make kind span fields) cursor fun node cursor' =>
      node = .mk kind cursor.fresh (some span) none none fields ∧
      cursor' = { cursor with fresh := cursor.fresh + 1 } :=
  ⟨rfl, rfl, rfl⟩

/-- The values of the child fields among fields of a node of a kind. -/
def fieldValues (kind : Kind) (fields : List (Field × Value)) : List Value :=
  kind.childFields.flatMap fun field => ((fields.lookup field).getD .null).flat

/-- A node that is closed here, and whose children are arranged in it one after the other, fits
between its start and the last token taken. -/
theorem ensures_finish {before : Cursor} (hstart : TokenStarts lexed.tokens start)
    (hto : before.To lexed cursor) (hkind : kind.isForm = true) (hlt : start < cursor.lastEnd)
    (harranged : Arranged ⟨start, cursor.lastEnd⟩ (fieldValues kind fields))
    (hbelow : ∀ child ∈ (fieldValues kind fields).filterMap Value.node?,
      Placed lexed.tokens child) (hturns : InTurn kind (spansOf (fieldValues kind fields))) :
    Ensures (finish kind start fields) cursor (ReadsFrom lexed start before) := by
  refine ensures_get_bind.2 (ensures_make.imp ?_)
  rintro node _ ⟨rfl, rfl⟩
  refine ⟨hto, hlt, hkind, ?_, ⟨start, cursor.lastEnd⟩, rfl, Nat.le_refl _, Nat.le_of_lt hlt,
    Nat.le_refl _⟩
  refine .intro rfl ((bounded_of_isForm hkind).2 ?_) harranged hbelow hturns
  exact ⟨hstart, hto.1.stops (by omega), hlt⟩

/-- A node that is closed here is of the kind it was asked for, and spans all from its start to the
last token taken. -/
theorem grants_finish :
    Grants (finish kind start fields) cursor fun node cursor' =>
      node.kind = kind ∧ node.span = some ⟨start, cursor'.lastEnd⟩ := by
  intro node next hrun
  cases hrun
  exact ⟨rfl, rfl⟩

/-- A node without children that is one token fits where the token stands, also if it is made
later. -/
theorem Took.leaf_later {last : Cursor} (h : Took lexed cursor token cursor')
    (hto : cursor'.To lexed last) (hfields : kind.childFields = []) (hkind : kind.isForm = true) :
    Ensures (make kind token.span fields) last fun node last' =>
      last.To lexed last' ∧ node.kind.isForm = true ∧
        Fits lexed.tokens cursor.front cursor'.lastEnd node := by
  refine ensures_make.imp ?_
  rintro node _ ⟨rfl, rfl⟩
  obtain ⟨⟨_, hlt⟩, hmem, hstart, hstop⟩ := h
  have hlt' : token.span.start < token.span.stop := by rw [hstart, hstop]; exact hlt
  refine ⟨hto.1.to, hkind, ?_, token.span, rfl, Nat.le_of_eq hstart.symm, Nat.le_of_lt hlt',
    Nat.le_of_eq hstop⟩
  refine placed_of_row rfl hkind ⟨token, hmem, rfl⟩ ⟨token, hmem, rfl⟩ hlt' ?_
  have : Node.childValues (.mk kind last.fresh (some token.span) none none fields) = [] := by
    simp [Node.childValues, Node.kind, hfields]
  rw [this]
  exact .nil (Nat.le_of_lt hlt')

/-- A node without children that is one token fits where the token stands. -/
theorem Took.leaf (h : Took lexed cursor token cursor') (hfields : kind.childFields = [])
    (hkind : kind.isForm = true) :
    Ensures (make kind token.span fields) cursor' (Reads lexed cursor) := by
  refine (h.leaf_later h.1.1.sound.to hfields hkind).imp fun node last hpost => ?_
  exact ⟨h.1.1.trans hpost.1, Nat.lt_of_lt_of_le h.1.2 hpost.1.last_le, hpost.2.1,
    hpost.2.2.mono (Nat.le_refl _) hpost.1.last_le⟩

/-- A change of scope changes nothing else. -/
theorem ensures_modifyScope (change : Cursor → Scope) :
    Ensures (modify fun cursor => { cursor with scope := change cursor }) cursor fun _ cursor' =>
      ∃ scope, cursor' = { cursor with scope } :=
  ⟨rfl, _, rfl⟩

/-- A change of scope is of no concern. -/
theorem ensures_within (h : ∀ scope, Ensures reader { cursor with scope } post)
    (hpost : ∀ result cursor' scope, post result cursor' → post result { cursor' with scope }) :
    Ensures (within inner reader) cursor post := by
  refine ensures_get_bind.2 ?_
  refine (ensures_modifyScope _).bind ?_
  rintro _ _ ⟨scope, rfl⟩
  refine (h scope).bind fun result cursor' hresult => ?_
  refine (ensures_modifyScope _).bind ?_
  rintro _ _ ⟨scope', rfl⟩
  exact ensures_pure (hpost _ _ _ hresult)

/-- Rounds of which each but the last takes a token ensure of all items' values what one round
ensures of one item's. As many rounds are enough as there are tokens, and one more. -/
theorem ensures_rounds {round : TreeReader (Option (α × Bool))} (values : α → List Value)
    (one post : Cursor → List Value → Cursor → Prop)
    (hround : ∀ cursor', cursor.To lexed cursor' → Ensures round cursor' fun item cursor'' =>
      match item with
      | none => post cursor' [] cursor''
      | some (item, more) => Moves lexed cursor' cursor'' ∧ one cursor' (values item) cursor'' ∧
        (more = false → post cursor' (values item) cursor''))
    (happend : ∀ {first second third values later}, one first values second →
      post second later third → post first (values ++ later) third) :
    ∀ (bound : Nat) (cursor' : Cursor), cursor.To lexed cursor' → cursor'.left < bound →
      Ensures (rounds Cursor.left (throw .stalled) round bound) cursor'
        fun items => post cursor' (items.flatMap values)
  | 0, _, _, hbound => absurd hbound (Nat.not_lt_zero _)
  | bound + 1, cursor', h, hbound => by
    refine ensures_get_bind.2 ((hround cursor' h).bind fun item cursor'' hitem => ?_)
    match item, hitem with
    | none, hitem => exact ensures_pure hitem
    | some (item, false), hitem =>
      refine ensures_pure ?_
      rw [List.flatMap_singleton]
      exact hitem.2.2 rfl
    | some (item, true), hitem =>
      have hleft := hitem.1.1.left_lt h.1 hitem.1.2
      refine ensures_get_bind.2 (ensures_ite (fun _ => ?_) fun hnot => absurd hleft hnot)
      refine (ensures_rounds values one post hround happend bound cursor'' (h.trans hitem.1.1)
        (by omega)).bind ?_
      exact fun items _ hitems => ensures_pure (happend hitem.2.1 hitems)

/-- What one step ensures that keeps something of the value it goes on from. A step that gives a
value takes a token. -/
def Stepped (lexed : Lexed) (keep : α → Cursor → Prop) (value : α) (cursor : Cursor) :
    Option α → Cursor → Prop
  | none, cursor' => keep value cursor'
  | some value, cursor' => Moves lexed cursor cursor' ∧ keep value cursor'

/-- Steps of which each takes a token keep what each of them keeps. -/
theorem ensures_steps {step : α → TreeReader (Option α)} (keep : α → Cursor → Prop)
    (hsound : ∀ {value cursor}, keep value cursor → cursor.Sound lexed)
    (hstep : ∀ {value cursor}, keep value cursor →
      Ensures (step value) cursor (Stepped lexed keep value cursor)) :
    ∀ (bound : Nat) (value : α) (cursor : Cursor), keep value cursor → cursor.left < bound →
      Ensures (steps Cursor.left (throw .stalled) step bound value) cursor keep
  | 0, _, _, _, hbound => absurd hbound (Nat.not_lt_zero _)
  | bound + 1, value, cursor, h, hbound => by
    refine ensures_get_bind.2 ((hstep h).bind fun found cursor' hfound => ?_)
    match found, hfound with
    | none, hfound => exact ensures_pure hfound
    | some value, hfound =>
      have hleft := hfound.1.1.left_lt (hsound h) hfound.1.2
      refine ensures_get_bind.2 (ensures_ite (fun _ => ?_) fun hnot => absurd hleft hnot)
      exact ensures_steps keep hsound hstep bound value cursor' hfound.2 (by omega)

/-- Steps of which each takes a token keep what each of them keeps, however many. -/
theorem ensures_stepping {step : α → TreeReader (Option α)} {value : α}
    (keep : α → Cursor → Prop)
    (hsound : ∀ {value cursor}, keep value cursor → cursor.Sound lexed)
    (hstep : ∀ {value cursor}, keep value cursor →
      Ensures (step value) cursor (Stepped lexed keep value cursor)) (h : keep value cursor) :
    Ensures (stepping step value) cursor keep :=
  ensures_get_bind.2 (ensures_steps keep hsound hstep _ value cursor h (Nat.lt_succ_self _))

/-- What one round of a repetition ensures whose items stand for values in a row. A round that gives
an item takes a token. -/
def Round (lexed : Lexed) (values : α → List Value) (cursor : Cursor) :
    Option (α × Bool) → Cursor → Prop
  | none, cursor' => cursor.To lexed cursor'
  | some (item, _), cursor' =>
    Moves lexed cursor cursor' ∧ Row lexed.tokens cursor.lastEnd (values item) cursor'.lastEnd

/-- Values that were read in a row after others. -/
theorem Spread.append {cursor'' : Cursor} {values later : List Value}
    (h : Spread lexed cursor values cursor') (hlater : Spread lexed cursor' later cursor'') :
    Spread lexed cursor (values ++ later) cursor'' :=
  ⟨h.1.trans hlater.1, h.2.append hlater.2⟩

/-- Rounds that each read values in a row read all of them in a row. -/
theorem ensures_many {round : TreeReader (Option (α × Bool))} (values : α → List Value)
    (hround : ∀ cursor', cursor.To lexed cursor' →
      Ensures round cursor' (Round lexed values cursor'))
    (h : cursor.Sound lexed) :
    Ensures (many round) cursor fun items cursor' =>
      Spread lexed cursor (items.flatMap values) cursor' := by
  refine ensures_get_bind.2 (ensures_rounds values (Spread lexed) (Spread lexed)
    (fun cursor h => ?_) (fun hitem hitems => hitem.append hitems) _ cursor h.to
    (Nat.lt_succ_self _))
  refine (hround cursor h).imp fun item cursor' hitem => ?_
  match item, hitem with
  | none, hto => exact ⟨hto, .nil hto.last_le⟩
  | some _, hitem => exact ⟨hitem.1, ⟨hitem.1.1, hitem.2⟩, fun _ => ⟨hitem.1.1, hitem.2⟩⟩

/-- What one node that was read spreads over. -/
theorem ReadsFrom.spread (h : ReadsFrom lexed start cursor node cursor')
    (hle : cursor.lastEnd ≤ start) :
    Spread lexed cursor [.node node] cursor' :=
  ⟨h.1, (h.2.2.2.mono hle (Nat.le_refl _)).row⟩

section
variable (h : Reads lexed cursor node cursor')
include h

/-- What one node that was read spreads over. -/
theorem Reads.spread (hs : cursor.Sound lexed) : Spread lexed cursor [.node node] cursor' :=
  ReadsFrom.spread h hs.gap

/-- Where a node was read tokens were taken. -/
theorem Reads.moves : Moves lexed cursor cursor' :=
  ⟨h.1, h.2.1⟩

/-- A round may read a node. -/
theorem Reads.round (hs : cursor.Sound lexed) :
    Moves lexed cursor cursor' ∧ Row lexed.tokens cursor.lastEnd [.node node] cursor'.lastEnd :=
  ⟨h.moves, (h.spread hs).2⟩

end

/-- Rounds that each read a node read nodes in a row. -/
theorem ensures_many_nodes {round : TreeReader (Option (Node × Bool))}
    (hround : ∀ cursor', cursor.To lexed cursor' →
      Ensures round cursor' (Round lexed (fun node => [.node node]) cursor'))
    (h : cursor.Sound lexed) :
    Ensures (many round) cursor fun items cursor' =>
      Spread lexed cursor (items.map .node) cursor' := by
  refine (ensures_many (fun node => [.node node]) hround h).imp fun items cursor' hitems => ?_
  rwa [← List.map_eq_flatMap] at hitems

variable {before cursor' : Cursor} {values : List Value} {post : β → Cursor → Prop}

theorem Moves.after (h : Moves lexed cursor cursor') (hto : before.To lexed cursor) :
    Moves lexed before cursor' :=
  ⟨hto.trans h.1, Nat.lt_of_le_of_lt hto.front_le h.2⟩

theorem Moves.to (h : Moves lexed before cursor) (hto : cursor.To lexed cursor') :
    Moves lexed before cursor' :=
  ⟨h.1.trans hto, Nat.lt_of_lt_of_le h.2 hto.last_le⟩

theorem Moves.since (h : Moves lexed before cursor) : Since lexed before [] cursor :=
  ⟨h.1, h.2, .nil (Nat.le_of_lt h.2)⟩

section
variable (h : Reads lexed cursor node cursor') (hto : before.To lexed cursor)
include h hto

/-- What was read when a node was read, perhaps after tokens. -/
theorem Reads.since : Since lexed before [.node node] cursor' :=
  ⟨hto.trans h.1, Nat.lt_of_le_of_lt hto.front_le h.2.1,
    (h.2.2.2.mono hto.front_le (Nat.le_refl _)).row⟩

/-- A node that was read between tokens that leave no trace. -/
theorem Reads.around {last : Cursor} (hto' : cursor'.To lexed last) :
    Reads lexed before node last :=
  ⟨(hto.trans h.1).trans hto',
    Nat.lt_of_lt_of_le (Nat.lt_of_le_of_lt hto.front_le h.2.1) hto'.last_le, h.2.2.1,
    h.2.2.2.mono hto.front_le hto'.last_le⟩

/-- A round may read an item, and a comma if another item may follow. -/
theorem Reads.comma {f : Node → α} {values : α → List Value} (hbefore : before.Sound lexed)
    (hvalues : values (f node) = [.node node]) :
    Ensures (do return some (f node, ← eat ",")) cursor' (Round lexed values before) := by
  refine (ensures_eat h.1.sound ",").bind fun _ _ heat => ensures_pure ?_
  rw [Round, hvalues]
  exact (h.around hto heat.1).round hbefore

end

/-- A round of a list in brackets reads an item, or none is left. -/
theorem ensures_item {item : TreeReader Node} {close : String} (h : cursor.Sound lexed)
    (hitem : Ensures item cursor (Reads lexed cursor)) :
    Ensures (do
      if ← isAt close then return none
      let node ← item
      return some (node, ← eat ",")) cursor (Round lexed (fun node => [.node node]) cursor) :=
  ensures_isAt_bind.2 (ensures_ite (fun _ => ensures_pure h.to) fun _ =>
    hitem.bind fun _ _ hnode => hnode.comma (f := id) h.to h rfl)

/-- A round of a list in square brackets reads an element or a hole, or none is left. -/
theorem ensures_element {item : TreeReader Node} (h : cursor.Sound lexed)
    (hitem : ∀ cursor', cursor.To lexed cursor' → Ensures item cursor' (Reads lexed cursor')) :
    Ensures (do
      if ← isAt "]" then return none
      if ← eat "," then return some (Value.null, true)
      let node ← item
      return some (.node node, ← eat ",")) cursor (Round lexed (fun value => [value]) cursor) := by
  refine ensures_isAt_bind.2 (ensures_ite (fun _ => ensures_pure h.to) fun _ => ?_)
  refine (ensures_eat h ",").bind fun _ c1 h1 => ensures_ite (fun ht => ?_) fun _ => ?_
  · exact ensures_pure ⟨⟨h1.1, h1.2.1 ht⟩, .hole (.nil h1.1.last_le)⟩
  · exact (hitem c1 h1.1).bind fun _ _ hnode => hnode.comma h1.1 h rfl

theorem Since.sound (h : Since lexed before values cursor) : cursor.Sound lexed :=
  h.1.1

/-- What was read since the cursor stood here was read behind what was taken before. -/
theorem Since.spread (h : Since lexed cursor values cursor')
    (hs : cursor.Sound lexed) : Spread lexed cursor values cursor' :=
  ⟨h.1, h.2.2.mono_low hs.gap⟩

theorem Since.moves (h : Since lexed before values cursor) : Moves lexed before cursor :=
  ⟨h.1, h.2.1⟩

theorem Since.after (h : Since lexed cursor values cursor')
    (hto : before.To lexed cursor) : Since lexed before values cursor' :=
  ⟨hto.trans h.1, Nat.lt_of_le_of_lt hto.front_le h.2.1, h.2.2.mono_low hto.front_le⟩

section
variable {later : List Value} (h : Since lexed before values cursor)
include h

/-- Values that were read in a row behind others. -/
theorem Since.step (hlater : Spread lexed cursor later cursor') :
    Since lexed before (values ++ later) cursor' :=
  ⟨h.1.trans hlater.1, Nat.lt_of_lt_of_le h.2.1 hlater.1.last_le, h.2.2.append hlater.2⟩

theorem Since.append (hlater : Since lexed cursor later cursor') :
    Since lexed before (values ++ later) cursor' :=
  h.step (hlater.spread h.sound)

theorem Since.to (hto : cursor.To lexed cursor') : Since lexed before values cursor' :=
  ⟨h.1.trans hto, Nat.lt_of_lt_of_le h.2.1 hto.last_le, h.2.2.mono_high hto.last_le⟩

/-- One node is read behind others. -/
theorem Since.read {reader : TreeReader Node} {next : Node → TreeReader β}
    (hread : Ensures reader cursor (Reads lexed cursor))
    (hnext : ∀ node cursor', Since lexed before (values ++ [.node node]) cursor' →
      Ensures (next node) cursor' post) : Ensures (reader >>= next) cursor post :=
  hread.bind fun node cursor' hnode => hnext node cursor' (h.step (hnode.spread h.sound))

/-- A node that may be missing is read behind others. -/
theorem Since.readOption {reader : TreeReader (Option Node)} {next : Option Node → TreeReader β}
    (hread : Ensures reader cursor fun node? cursor' =>
      Spread lexed cursor [.ofNode? node?] cursor')
    (hnext : ∀ node? cursor', Since lexed before (values ++ [.ofNode? node?]) cursor' →
      Ensures (next node?) cursor' post) : Ensures (reader >>= next) cursor post :=
  hread.bind fun node? cursor' hnode => hnext node? cursor' (h.step hnode)

/-- Values are read in a row behind others. -/
theorem Since.readAll {next : α → TreeReader β} {f : α → List Value}
    (hread : Ensures reader cursor fun item cursor' => Spread lexed cursor (f item) cursor')
    (hnext : ∀ item cursor', Since lexed before (values ++ f item) cursor' →
      Ensures (next item) cursor' post) : Ensures (reader >>= next) cursor post :=
  hread.bind fun item cursor' hitem => hnext item cursor' (h.step hitem)

/-- Tokens are passed behind values. -/
theorem Since.pass {next : α → TreeReader β}
    (hpass : Ensures reader cursor fun _ cursor' => cursor.To lexed cursor')
    (hnext : ∀ item cursor', Since lexed before values cursor' → Ensures (next item) cursor' post) :
    Ensures (reader >>= next) cursor post :=
  hpass.bind fun item cursor' hto => hnext item cursor' (h.to hto)

/-- A token that has to be next is passed behind values. -/
theorem Since.expect {next : Unit → TreeReader β} (text : String)
    (hnext : ∀ cursor', Since lexed before values cursor' → Ensures (next ()) cursor' post) :
    Ensures (TreeReader.expect text >>= next) cursor post :=
  h.pass ((ensures_expect h.sound text).imp fun _ _ hmoves => hmoves.1) fun _ => hnext

/-- A node over all that was read since its start. -/
theorem Since.finish (hbefore : before.Sound lexed)
    (hkind : kind.isForm = true) (hvalues : fieldValues kind fields = values) :
    Ensures (finish kind before.front fields) cursor (Reads lexed before) := by
  obtain ⟨hto, hlt, hrow⟩ := h
  subst hvalues
  exact ensures_finish (hbefore.starts hto hlt) hto hkind hlt hrow.arranged hrow.placed
    (hrow.inTurn _)

/-- A node over all that was read since its start is closed behind every token that was taken. -/
theorem Since.finish_moves {first : Cursor} (hbefore : before.Sound lexed)
    (hmoves : Moves lexed first cursor)
    (hkind : kind.isForm = true) (hvalues : fieldValues kind fields = values) :
    Ensures (TreeReader.finish kind before.front fields) cursor fun node cursor' =>
      Moves lexed first cursor' ∧ Reads lexed before node cursor' := by
  have hstays : Grants (TreeReader.finish kind before.front fields) cursor fun _ cursor' =>
      cursor' = { cursor with fresh := cursor.fresh + 1 } := by
    intro node next hrun
    cases hrun
    rfl
  refine ((h.finish hbefore hkind hvalues).and hstays).imp ?_
  rintro node _ ⟨hnode, rfl⟩
  exact ⟨hmoves, hnode⟩

end

/-- Rounds of which each takes a token take one at least. -/
theorem ensures_many_since {round : TreeReader (Option (α × Bool))} (values : α → List Value)
    (hround : ∀ cursor', cursor.To lexed cursor' → Ensures round cursor'
      fun item cursor'' => ∃ part more, item = some (part, more) ∧
        Since lexed cursor' (values part) cursor'')
    (h : cursor.Sound lexed) :
    Ensures (many round) cursor fun items cursor' =>
      Since lexed cursor (items.flatMap values) cursor' := by
  refine ensures_get_bind.2 (ensures_rounds values (Since lexed) (Since lexed) (fun cursor h => ?_)
    (fun hitem hitems => hitem.append hitems) _ cursor h.to (Nat.lt_succ_self _))
  refine (hround cursor h).imp ?_
  rintro _ cursor' ⟨part, more, rfl, hpart⟩
  exact ⟨hpart.moves, hpart, fun _ => hpart⟩

/-- What is read in another scope stands where it stands. -/
theorem ensures_within_since {f : α → List Value} (h : cursor.Sound lexed)
    (hread : ∀ cursor', cursor.To lexed cursor' → Ensures reader cursor'
      fun item cursor'' => Since lexed cursor' (f item) cursor'') :
    Ensures (within inner reader) cursor fun item cursor' =>
      Since lexed cursor (f item) cursor' :=
  ensures_within (fun _ => hread _ h.to) fun _ _ _ hpost => hpost

/-- A word and what follows it, if it is there. -/
theorem ensures_eat_then {text : String} {reader : TreeReader Node} (h : cursor.Sound lexed)
    (hread : ∀ cursor', Moves lexed cursor cursor' → Ensures reader cursor' (Reads lexed cursor')) :
    Ensures (do if ← eat text then return some (← reader) else return none) cursor
      fun node? cursor' => Spread lexed cursor [.ofNode? node?] cursor' := by
  refine (ensures_eat h text).bind fun taken c1 h1 => ensures_ite (fun ht => ?_) fun _ => ?_
  · refine (hread c1 ⟨h1.1, h1.2.1 ht⟩).bind fun node c2 h2 => ensures_pure ⟨h1.1.trans h2.1, ?_⟩
    exact (h2.spread h1.1.sound).2.mono_low h1.1.last_le
  · exact ensures_pure ⟨h1.1, .hole (.nil h1.1.last_le)⟩

end

end TreeReader

end DocTypes
