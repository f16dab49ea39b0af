import DocTypes.Proofs.Rounds
import DocTypes.Proofs.TypeExpr.Lexemes

/-!
# What a type reader gives

Readers of types are followed on the lexemes of the pending tokens: `Gives reader lexemes value
rest` says that the reader, wherever these lexemes are pending, gives the value and leaves the rest.
-/

namespace DocTypes

namespace TypeLexeme

/-- The lexeme of the token at the end. -/
def last : TypeLexeme :=
  ⟨.endOfInput, ""⟩

/-- Is it the punctuator or the word `text`? -/
def is (lexeme : TypeLexeme) (text : String) : Bool :=
  lexeme.text == text && (lexeme.kind == .punctuator || lexeme.kind == .name)

/-- The lexeme `ahead` places after the next one. -/
def peek (lexemes : List TypeLexeme) (ahead : Nat) : TypeLexeme :=
  lexemes[ahead]?.getD last

@[simp]
theorem peek_zero (lexeme : TypeLexeme) (rest : List TypeLexeme) :
    peek (lexeme :: rest) 0 = lexeme :=
  rfl

@[simp]
theorem peek_one (lexeme : TypeLexeme) (rest : List TypeLexeme) :
    peek (lexeme :: rest) 1 = peek rest 0 :=
  rfl

@[simp]
theorem is_sign (text other : String) : (sign text).is other = (text == other) := by
  simp [is, sign]

@[simp]
theorem is_word (text other : String) : (word text).is other = (text == other) := by
  simp [is, word]

@[simp]
theorem text_sign (text : String) : (sign text).text = text :=
  rfl

end TypeLexeme

open TypeLexeme (sign word)

/-- The cursor stands before tokens with these lexemes. -/
structure TypeCursor.Before (cursor : TypeCursor) (lexemes : List TypeLexeme) : Prop where
  pending : cursor.pending.map TypeToken.lexeme = lexemes
  last : cursor.endToken.lexeme = TypeLexeme.last

/-- As many tokens are pending as there are lexemes. -/
theorem TypeCursor.Before.left {cursor : TypeCursor} {lexemes : List TypeLexeme}
    (h : cursor.Before lexemes) : cursor.left = lexemes.length := by
  rw [← h.pending, List.length_map, TypeCursor.left]

namespace TypeReader

variable {α β : Type} {reader : TypeReader α} {value : α} {lexemes rest : List TypeLexeme}

/-- Where the lexemes are pending, the reader gives the value and leaves the rest. -/
def Gives (reader : TypeReader α) (lexemes : List TypeLexeme) (value : α)
    (rest : List TypeLexeme) : Prop :=
  ∀ cursor : TypeCursor, cursor.Before lexemes →
    ∃ cursor', cursor'.Before rest ∧ reader.run cursor = .ok (value, cursor')

theorem gives_pure : Gives (pure value) lexemes value lexemes :=
  fun cursor hcursor => ⟨cursor, hcursor, rfl⟩

variable {value' : β} {later : List TypeLexeme} {next : TypeToken → TypeReader β}
  {lexeme : TypeLexeme}

theorem Gives.bind {next : α → TypeReader β} (h : Gives reader lexemes value rest)
    (hnext : Gives (next value) rest value' later) :
    Gives (reader >>= next) lexemes value' later := by
  intro cursor hcursor
  obtain ⟨cursor', hcursor', hrun⟩ := h cursor hcursor
  obtain ⟨cursor'', hcursor'', hrun'⟩ := hnext cursor' hcursor'
  exact ⟨cursor'', hcursor'', by rw [run_bind_ok hrun, hrun']⟩

theorem gives_get_bind {next : TypeCursor → TypeReader β}
    (h : ∀ cursor : TypeCursor, cursor.Before lexemes → Gives (next cursor) lexemes value' later) :
    Gives (get >>= next) lexemes value' later :=
  fun cursor hcursor => h cursor hcursor cursor hcursor

theorem gives_peek_bind {ahead : Nat}
    (h : ∀ token : TypeToken, token.lexeme = TypeLexeme.peek lexemes ahead →
      Gives (next token) lexemes value' later) :
    Gives (peek ahead >>= next) lexemes value' later := by
  intro cursor hcursor
  refine h (cursor.pending[ahead]?.getD cursor.endToken) ?_ cursor hcursor
  rw [TypeLexeme.peek, ← hcursor.pending, List.getElem?_map, ← hcursor.last]
  cases cursor.pending[ahead]? <;> rfl

theorem gives_current_bind
    (h : ∀ offset, Gives (next ⟨lexeme.kind, lexeme.text, offset⟩) (lexeme :: rest) value' later) :
    Gives (current >>= next) (lexeme :: rest) value' later :=
  gives_peek_bind fun token htoken => by
    have hlexeme : lexeme = token.lexeme := htoken.symm
    subst hlexeme
    exact h token.offset

theorem gives_at? (text : String) :
    Gives (at? text) lexemes ((TypeLexeme.peek lexemes 0).is text) lexemes :=
  gives_peek_bind fun token htoken => by
    rw [← htoken]
    exact gives_pure

theorem gives_ahead? (ahead : Nat) (text : String) :
    Gives (ahead? ahead text) lexemes ((TypeLexeme.peek lexemes ahead).text == text) lexemes :=
  gives_peek_bind fun token htoken => by
    rw [← htoken]
    exact gives_pure

theorem gives_advance_bind
    (h : ∀ token : TypeToken, token.lexeme = lexeme → Gives (next token) rest value' later) :
    Gives (advance >>= next) (lexeme :: rest) value' later := by
  intro cursor hcursor
  obtain ⟨token, pending, hpending, htoken, hrest⟩ := List.map_eq_cons_iff.1 hcursor.pending
  have hrun : (advance : TypeReader _).run cursor = .ok (token, { cursor with pending }) := by
    refine run_bind_eq cursor cursor rfl ?_
    rw [hpending]
    rfl
  rw [run_bind_ok hrun]
  exact h token htoken _ ⟨hrest, hcursor.last⟩

theorem gives_skip {next : TypeReader β} (h : Gives next rest value' later) :
    Gives (advance >>= fun _ => next) (lexeme :: rest) value' later :=
  gives_advance_bind fun _ _ => h

theorem gives_eat {text : String} (h : lexeme.is text = true) :
    Gives (eat text) (lexeme :: rest) true rest := by
  refine (gives_at? text).bind ?_
  rw [show TypeLexeme.peek (lexeme :: rest) 0 = lexeme from rfl, h]
  exact gives_skip gives_pure

theorem gives_eat_not {text : String} (h : (TypeLexeme.peek lexemes 0).is text = false) :
    Gives (eat text) lexemes false lexemes := by
  refine (gives_at? text).bind ?_
  rw [h]
  exact gives_pure

theorem gives_expect (text : String) : Gives (expect text) (sign text :: rest) () rest :=
  (gives_eat (by simp)).bind gives_pure

theorem gives_terminated : Gives terminated lexemes
    (terminators.contains (TypeLexeme.peek lexemes 1).text) lexemes :=
  gives_peek_bind fun token htoken => by
    rw [← htoken]
    exact gives_pure

section
variable {yes no : TypeReader β} {second : TypeReader Bool} {value' : β} {later : List TypeLexeme}
  {text : String} {known : Bool}

theorem gives_then (h : known = true) (hyes : Gives yes lexemes value' later) :
    Gives (if known = true then yes else no) lexemes value' later := by
  rwa [if_pos h]

theorem gives_else (h : known = false) (hno : Gives no lexemes value' later) :
    Gives (if known = true then yes else no) lexemes value' later := by
  rwa [if_neg (by rw [h]; nofun)]

/-- A token is there that was asked for. -/
theorem gives_take {lexeme : TypeLexeme} (h : lexeme.is text = true)
    (hyes : Gives yes rest value' later) :
    Gives (eat text >>= fun taken => if taken = true then yes else no)
      (lexeme :: rest) value' later :=
  (gives_eat h).bind hyes

/-- A token is not there that was asked for. -/
theorem gives_pass (h : (TypeLexeme.peek lexemes 0).is text = false)
    (hno : Gives no lexemes value' later) :
    Gives (eat text >>= fun taken => if taken = true then yes else no) lexemes value' later :=
  (gives_eat_not h).bind hno

/-- A token is seen that was looked for. -/
theorem gives_see (h : (TypeLexeme.peek lexemes 0).is text = true)
    (hyes : Gives yes lexemes value' later) :
    Gives (at? text >>= fun seen => if seen = true then yes else no) lexemes value' later := by
  refine (gives_at? text).bind ?_
  rwa [h, if_pos rfl]

/-- A token is not seen that was looked for. -/
theorem gives_miss (h : (TypeLexeme.peek lexemes 0).is text = false)
    (hno : Gives no lexemes value' later) :
    Gives (at? text >>= fun seen => if seen = true then yes else no) lexemes value' later := by
  refine (gives_at? text).bind ?_
  rwa [h, if_neg nofun]

/-- A token is seen that was looked for, and what else is asked for holds. -/
theorem gives_see_both (h : (TypeLexeme.peek lexemes 0).is text = true)
    (hsecond : Gives second lexemes true lexemes) (hyes : Gives yes lexemes value' later) :
    Gives (at? text >>= fun seen => second >>= fun holds =>
      if (seen && holds) = true then yes else no) lexemes value' later := by
  refine (gives_at? text).bind (hsecond.bind ?_)
  rwa [h, if_pos (by rfl)]

/-- A token is not seen that was looked for, whatever else is asked for. -/
theorem gives_miss_both (h : (TypeLexeme.peek lexemes 0).is text = false)
    (hsecond : Gives second lexemes known lexemes) (hno : Gives no lexemes value' later) :
    Gives (at? text >>= fun seen => second >>= fun holds =>
      if (seen && holds) = true then yes else no) lexemes value' later := by
  refine (gives_at? text).bind (hsecond.bind ?_)
  rwa [h, if_neg (by simp)]

end

/-- The turns that a reader takes, and what they give. -/
inductive Turns (round : TypeReader (Option (α × Bool))) :
    List TypeLexeme → List α → List TypeLexeme → Prop
  | stop {lexemes rest : List TypeLexeme} (here : Gives round lexemes none rest) :
    Turns round lexemes [] rest
  | last {lexemes rest : List TypeLexeme} {item : α}
    (here : Gives round lexemes (some (item, false)) rest) : Turns round lexemes [item] rest
  | more {lexemes mid rest : List TypeLexeme} {item : α} {items : List α}
    (here : Gives round lexemes (some (item, true)) mid) (shorter : mid.length < lexemes.length)
    (later : Turns round mid items rest) : Turns round lexemes (item :: items) rest

/-- All turns are taken. -/
theorem Turns.gives {round : TypeReader (Option (α × Bool))} {items : List α}
    (h : Turns round lexemes items rest) : Gives (many round) lexemes items rest := by
  have hrounds : ∀ cursor : TypeCursor, cursor.Before lexemes →
      ∃ cursor', cursor'.Before rest ∧ Rounds TypeCursor.left round cursor items cursor' := by
    induction h with
    | stop here =>
      intro cursor hcursor
      obtain ⟨cursor', hcursor', hrun⟩ := here cursor hcursor
      exact ⟨cursor', hcursor', .stop hrun⟩
    | last here =>
      intro cursor hcursor
      obtain ⟨cursor', hcursor', hrun⟩ := here cursor hcursor
      exact ⟨cursor', hcursor', .last hrun⟩
    | more here shorter _ ih =>
      intro cursor hcursor
      obtain ⟨mid, hmid, hrun⟩ := here cursor hcursor
      obtain ⟨cursor', hcursor', hlater⟩ := ih mid hmid
      exact ⟨cursor', hcursor', .more hrun (by rwa [hmid.left, hcursor.left]) hlater⟩
  intro cursor hcursor
  obtain ⟨cursor', hcursor', hturns⟩ := hrounds cursor hcursor
  exact ⟨cursor', hcursor', run_bind_eq cursor cursor rfl (run_rounds hturns (Nat.le_refl _))⟩

/-- Steps that take a lexeme each lead from a value to another. -/
inductive Strides (step : α → TypeReader (Option α)) (value : α) (lexemes : List TypeLexeme) :
    α → List TypeLexeme → Prop
  | here : Strides step value lexemes value lexemes
  | more {value' value'' : α} {mid rest : List TypeLexeme}
      (before : Strides step value lexemes value' mid)
    (next : Gives (step value') mid (some value'') rest) (shorter : rest.length < mid.length) :
    Strides step value lexemes value'' rest

/-- All steps are gone, up to where none is left. -/
theorem Strides.gives {step : α → TypeReader (Option α)} {value' : α} {mid : List TypeLexeme}
    (h : Strides step value lexemes value' mid) (hstop : Gives (step value') mid none rest) :
    Gives (stepping step value) lexemes value' rest := by
  have hsteps : ∀ result, (∀ cursor : TypeCursor, cursor.Before mid →
        ∃ cursor', cursor'.Before rest ∧ Steps TypeCursor.left step value' cursor result cursor') →
      ∀ cursor : TypeCursor, cursor.Before lexemes →
        ∃ cursor', cursor'.Before rest ∧
        Steps TypeCursor.left step value cursor result cursor' := by
    clear hstop
    induction h with
    | here => exact fun _ hlater => hlater
    | more _ next shorter ih =>
      refine fun result hlater => ih result fun cursor hcursor => ?_
      obtain ⟨mid, hmid, hrun⟩ := next cursor hcursor
      obtain ⟨cursor', hcursor', hafter⟩ := hlater mid hmid
      exact ⟨cursor', hcursor', .more hrun (by rwa [hmid.left, hcursor.left]) hafter⟩
  intro cursor hcursor
  obtain ⟨cursor', hcursor', hall⟩ := hsteps value' (fun mid hmid => by
    obtain ⟨cursor', hcursor', hrun⟩ := hstop mid hmid
    exact ⟨cursor', hcursor', .stop hrun⟩) cursor hcursor
  exact ⟨cursor', hcursor', run_bind_eq cursor cursor rfl (run_steps hall (Nat.le_refl _))⟩

/-- Items with the punctuator `mark` between them. -/
inductive Chain (item : TypeReader TypeExpr) (mark : String) :
    List TypeLexeme → List TypeExpr → List TypeLexeme → Prop
  | one {lexemes rest : List TypeLexeme} {type : TypeExpr} (here : Gives item lexemes type rest)
    (le : rest.length ≤ lexemes.length) : Chain item mark lexemes [type] rest
  | more {lexemes mid rest : List TypeLexeme} {type : TypeExpr} {types : List TypeExpr}
    (here : Gives item lexemes type (sign mark :: mid)) (shorter : mid.length < lexemes.length)
    (later : Chain item mark mid types rest) : Chain item mark lexemes (type :: types) rest

section
variable {item : TypeReader TypeExpr} {mark : String} {types types' : List TypeExpr}
  {mid : List TypeLexeme}

/-- Items that go on with more items. -/
theorem Chain.append (h : Chain item mark lexemes types (sign mark :: mid))
    (h' : Chain item mark mid types' rest) : Chain item mark lexemes (types ++ types') rest := by
  generalize hstop : sign mark :: mid = stop at h
  induction h with
  | one here le =>
    subst hstop
    rw [List.length_cons] at le
    exact .more here (by omega) h'
  | more here shorter _ ih => exact .more here shorter (ih hstop)

section
variable (h : Chain item mark lexemes types rest)
  (hmark : (sign mark).is mark = true)
  (hrest : (TypeLexeme.peek rest 0).is mark = false)
include h hmark hrest

/-- The turns after the first item. -/
theorem Chain.turns :
    Turns (do if ← eat mark then return some (← item, true) else return none)
      (sign mark :: lexemes) types rest := by
  have hround : ∀ {lexemes mid type}, Gives item lexemes type mid →
      Gives (do if ← eat mark then return some (← item, true) else return none)
        (sign mark :: lexemes) (some (type, true)) mid :=
    fun hitem => (gives_eat hmark).bind (hitem.bind gives_pure)
  induction h with
  | one here le =>
    exact .more (hround here) (by rw [List.length_cons]; omega)
      (.stop ((gives_eat_not hrest).bind gives_pure))
  | more here shorter _ ih =>
    exact .more (hround here) (by simpa using shorter) (ih hrest)

/-- Reading items with a punctuator between them. -/
theorem Chain.gives : Gives (separatedBy mark item) lexemes types rest := by
  cases h with
  | one here =>
    refine here.bind (Gives.bind (Turns.gives (.stop ?_)) gives_pure)
    exact (gives_eat_not hrest).bind gives_pure
  | more here _ later => exact here.bind ((later.turns hmark hrest).gives.bind gives_pure)

end

end

end TypeReader

end DocTypes
