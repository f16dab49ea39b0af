import DocTypes.Proofs.Rounds
import DocTypes.Proofs.TypeExpr.SoundTokens

/-!
# What type readers find

`After reader cursor post` says what holds if the reader succeeds from the cursor, and that it never
takes a token after the last nor goes on without taking one. The rules follow the tokens that
readers look at and take. Readers are known by what they leave, whatever tokens of a text are
pending (`Leaves`). `Within` bounds the tokens that are left: a reader one level down is known where
there are fewer.
-/

namespace DocTypes

namespace TypeCursor

/-- The token `ahead` places after the next one. -/
def token (cursor : TypeCursor) (ahead : Nat) : TypeToken :=
  cursor.pending[ahead]?.getD cursor.endToken

/-- The cursor after the next token. -/
def rest (cursor : TypeCursor) : TypeCursor :=
  { cursor with pending := cursor.pending.drop 1 }

/-- The pending tokens have texts of their kinds. -/
structure Sound (source : List Char) (cursor : TypeCursor) : Prop where
  pending : ∀ token ∈ cursor.pending, token.Sound source
  last : cursor.endToken.Sound source

theorem token_rest (cursor : TypeCursor) (ahead : Nat) :
    cursor.rest.token ahead = cursor.token (ahead + 1) := by
  rw [token, token, rest, List.getElem?_drop, Nat.add_comm]

variable {cursor : TypeCursor}

theorem Sound.token {source : List Char} (h : cursor.Sound source) (ahead : Nat) :
    (cursor.token ahead).Sound source := by
  rw [TypeCursor.token]
  cases hfound : cursor.pending[ahead]? with
  | none => exact h.last
  | some token => exact h.pending token (List.mem_of_getElem? hfound)

theorem Sound.rest {source : List Char} (h : cursor.Sound source) :
    cursor.rest.Sound source :=
  ⟨fun token htoken => h.pending token (List.mem_of_mem_drop htoken), h.last⟩

/-- Less than `size` tokens of the source are pending, and then the end. -/
structure Within (source : List Char) (size : Nat) (cursor : TypeCursor) : Prop where
  sound : cursor.Sound source
  ended : cursor.endToken.kind = .endOfInput ∧ cursor.endToken.text = ""
  left : cursor.left < size

section
variable {source : List Char} {size : Nat} {cursor : TypeCursor} {text : String}

theorem Within.mono (h : cursor.Within source size) {more : Nat} (hle : size ≤ more) :
    cursor.Within source more :=
  ⟨h.sound, h.ended, Nat.lt_of_lt_of_le h.left hle⟩

theorem Within.tight (h : cursor.Within source size) : cursor.Within source (cursor.left + 1) :=
  ⟨h.sound, h.ended, Nat.lt_succ_self _⟩

/-- After a token was taken, one less is pending. -/
theorem Within.rest (h : cursor.Within source size) (hpending : cursor.pending ≠ []) :
    cursor.rest.Within source (size - 1) where
  sound := h.sound.rest
  ended := h.ended
  left := by
    have hpos := List.length_pos_iff.2 hpending
    have hleft := h.left
    simp only [TypeCursor.left, TypeCursor.rest, List.length_drop] at hleft ⊢
    omega

theorem Within.back (h : cursor.Within source (size - 1)) : cursor.Within source size :=
  h.mono (Nat.sub_le _ _)

section
variable (h : cursor.Within source size)
include h

/-- What has a text is not the end. -/
theorem Within.ne_nil_of_text (htext : (cursor.token 0).text = text)
    (hne : text ≠ "" := by decide) : cursor.pending ≠ [] := by
  intro hnil
  rw [token, hnil] at htext
  exact hne (htext.symm.trans h.ended.2)

/-- What is not of the kind of the end is not the end. -/
theorem Within.ne_nil_of_kind {kind : TypeTokenKind} (hkind : (cursor.token 0).kind = kind)
    (hne : kind ≠ .endOfInput := by decide) : cursor.pending ≠ [] := by
  intro hnil
  rw [token, hnil] at hkind
  exact hne (hkind.symm.trans h.ended.1)

/-- The end is no sign and no word. -/
theorem Within.ne_nil_of_is (his : (cursor.token 0).is text = true) : cursor.pending ≠ [] := by
  intro hnil
  rw [token, hnil] at his
  simp [TypeToken.is, h.ended] at his

/-- A name is no sign. -/
theorem Within.not_is_of_name (hkind : (cursor.token 0).kind = .name)
    (htext : TypeToken.isNameText text.toList = false) : (cursor.token 0).is text = false := by
  have hname := h.sound.token 0
  rw [TypeToken.Sound, hkind] at hname
  rw [TypeToken.is, Bool.and_eq_false_iff, beq_eq_false_iff_ne]
  left
  rintro rfl
  rw [hname] at htext
  cases htext

end

end

end TypeCursor

namespace TypeReader

variable {α β : Type} {reader : TypeReader α} {next : α → TypeReader β} {cursor : TypeCursor}

/-- If the reader succeeds from the cursor, then `post` holds of its value and of the cursor after
it; if not, the cause lies in the text. -/
def After (reader : TypeReader α) (cursor : TypeCursor) (post : α → TypeCursor → Prop) : Prop :=
  match reader.run cursor with
  | .ok (value, cursor') => post value cursor'
  | .error (cause, _) => cause.isOfText = true

section
variable {post : β → TypeCursor → Prop} {text : String}

theorem after_pure {value : β} (h : post value cursor) : After (pure value) cursor post :=
  h

theorem After.bind (h : After reader cursor fun value cursor' => After (next value) cursor' post) :
    After (reader >>= next) cursor post := by
  rw [After] at h
  rw [After, StateT.run_bind]
  cases hrun : reader.run cursor with
  | error fault =>
    rw [hrun] at h
    exact h
  | ok result =>
    rw [hrun] at h
    exact h

theorem After.mono {post' : β → TypeCursor → Prop} {reader : TypeReader β}
    (h : After reader cursor post)
    (himp : ∀ value cursor', post value cursor' → post' value cursor') :
    After reader cursor post' := by
  rw [After] at h ⊢
  split at h
  · exact himp _ _ h
  · exact h

/-- What follows a reader of which something is known. -/
theorem After.then {mid : α → TypeCursor → Prop} (h : After reader cursor mid)
    (hnext : ∀ value cursor', mid value cursor' → After (next value) cursor' post) :
    After (reader >>= next) cursor post :=
  After.bind (h.mono hnext)

theorem after_fail {cause : TypeCause} (h : cause.isOfText = true) :
    After (fail cause) cursor post :=
  h

theorem after_fail_bind {cause : TypeCause} (h : cause.isOfText = true) :
    After (fail cause >>= next) cursor post :=
  h

theorem after_get_bind {next : TypeCursor → TypeReader β} (h : After (next cursor) cursor post) :
    After (get >>= next) cursor post :=
  h

theorem after_peek_bind {next : TypeToken → TypeReader β} (ahead : Nat)
    (h : After (next (cursor.token ahead)) cursor post) : After (peek ahead >>= next) cursor post :=
  h

theorem after_current_bind {next : TypeToken → TypeReader β}
    (h : After (next (cursor.token 0)) cursor post) : After (current >>= next) cursor post :=
  h

variable {next : Bool → TypeReader β}

theorem after_at?_bind (h : After (next ((cursor.token 0).is text)) cursor post) :
    After (at? text >>= next) cursor post :=
  h

theorem after_ahead?_bind {ahead : Nat}
    (h : After (next ((cursor.token ahead).text == text)) cursor post) :
    After (ahead? ahead text >>= next) cursor post :=
  h

theorem after_terminated_bind
    (h : After (next (terminators.contains (cursor.token 1).text)) cursor post) :
    After (terminated >>= next) cursor post :=
  h

theorem after_ite {known : Prop} [Decidable known] {yes no : TypeReader β}
    (hyes : known → After yes cursor post) (hno : ¬known → After no cursor post) :
    After (if known then yes else no) cursor post := by
  split
  · exact hyes ‹_›
  · exact hno ‹_›

variable {source : List Char} {size : Nat}

theorem after_advance_bind {next : TypeToken → TypeReader β} (hcursor : cursor.Within source size)
    (hpending : cursor.pending ≠ []) (h : cursor.rest.Within source (size - 1) →
      After (next (cursor.token 0)) cursor.rest post) : After (advance >>= next) cursor post := by
  obtain ⟨token, pending, heq⟩ := List.exists_cons_of_ne_nil hpending
  have hrun : (advance : TypeReader _).run cursor = .ok (cursor.token 0, cursor.rest) := by
    obtain ⟨_, endToken⟩ := cursor
    subst heq
    rfl
  rw [After, run_bind_ok hrun]
  exact h (hcursor.rest hpending)

theorem after_eat_bind (hcursor : cursor.Within source size)
    (hyes : (cursor.token 0).is text = true → cursor.rest.Within source (size - 1) →
      After (next true) cursor.rest post)
    (hno : (cursor.token 0).is text = false → After (next false) cursor post) :
    After (eat text >>= next) cursor post := by
  refine After.bind (after_at?_bind ?_)
  cases his : (cursor.token 0).is text with
  | true =>
    exact after_advance_bind hcursor (hcursor.ne_nil_of_is his) fun hrest =>
      after_pure (hyes his hrest)
  | false => exact after_pure (hno his)

theorem after_expect_bind {next : Unit → TypeReader β} (hcursor : cursor.Within source size)
    (h : cursor.rest.Within source (size - 1) → After (next ()) cursor.rest post) :
    After (expect text >>= next) cursor post := by
  refine After.bind (after_eat_bind hcursor (fun _ hrest => after_pure (h hrest)) fun _ => ?_)
  exact after_current_bind (after_fail rfl)

end

/-- Where less than `limit` tokens are pending, the reader leaves a value and a cursor of which `P`
holds, and as many tokens at most. -/
def Leaves (source : List Char) (limit : Nat) (reader : TypeReader α) (P : α → TypeCursor → Prop) :
    Prop :=
  ∀ size ≤ limit, ∀ cursor : TypeCursor, cursor.Within source size →
    After reader cursor fun value cursor' => cursor'.Within source size ∧ P value cursor'

section
variable {source : List Char} {size limit : Nat} {P : α → TypeCursor → Prop}
  {post : β → TypeCursor → Prop}

/-- What follows a reader that leaves something. -/
theorem Leaves.bind (h : Leaves source limit reader P) (hsize : size ≤ limit)
    (hcursor : cursor.Within source size)
    (hnext : ∀ value cursor', cursor'.Within source size → P value cursor' →
      After (next value) cursor' post) : After (reader >>= next) cursor post :=
  (h size hsize cursor hcursor).then fun value cursor' hvalue =>
    hnext value cursor' hvalue.1 hvalue.2

/-- What follows a token that may be taken. -/
theorem after_skip_bind {text : String} {next : Bool → TypeReader β}
    (hcursor : cursor.Within source size)
    (hnext : ∀ taken cursor', cursor'.Within source size → After (next taken) cursor' post) :
    After (eat text >>= next) cursor post :=
  after_eat_bind hcursor (fun _ hrest => hnext true _ hrest.back) fun _ => hnext false _ hcursor

end

/-- The rounds take a token each, as long as another follows. -/
def Rounded (source : List Char) (size : Nat) (round : TypeReader (Option (α × Bool)))
    (P : α → Prop) : Prop :=
  ∀ size' ≤ size, ∀ cursor : TypeCursor, cursor.Within source size' →
    After round cursor fun
      | none, cursor' => cursor'.Within source size'
      | some (item, more), cursor' => cursor'.Within source size' ∧ P item ∧
        (more = true → cursor'.Within source (size' - 1))

section
variable {source : List Char} {size : Nat} {P : α → Prop} {post : β → TypeCursor → Prop}

variable {round : TypeReader (Option (α × Bool))}

/-- What each round finds is found by all rounds. -/
theorem after_rounds (h : Rounded source size round P) (bound : Nat) :
    bound ≤ size → ∀ cursor : TypeCursor, cursor.Within source bound →
      After (rounds TypeCursor.left (fail .stalled) round bound) cursor fun items cursor' =>
        cursor'.Within source bound ∧ ∀ item ∈ items, P item := by
  induction bound with
  | zero => exact fun _ cursor hcursor => absurd hcursor.left (Nat.not_lt_zero _)
  | succ bound ih =>
    intro hbound cursor hcursor
    refine after_get_bind ((h _ (Nat.le_trans hcursor.left hbound) cursor hcursor.tight).then
      fun item cursor' hitem => ?_)
    rcases item with _ | ⟨item, _ | _⟩
    · exact after_pure ⟨hitem.mono hcursor.left, List.forall_mem_nil _⟩
    · exact after_pure ⟨hitem.1.mono hcursor.left, List.forall_mem_singleton.2 hitem.2.1⟩
    · obtain ⟨-, hfound, htaken⟩ := hitem
      have hless : cursor'.left < cursor.left := (htaken rfl).left
      refine after_get_bind (after_ite (fun _ => ?_) (absurd hless))
      refine (ih (Nat.le_of_succ_le hbound) cursor'
        ((htaken rfl).mono (Nat.le_of_lt_succ hcursor.left))).then
        fun items cursor'' hitems => after_pure ⟨hitems.1.mono (Nat.le_succ _), ?_⟩
      exact List.forall_mem_cons.2 ⟨hfound, hitems.2⟩

/-- What follows rounds. -/
theorem after_many_bind (P : α → Prop) {next : List α → TypeReader β}
    (hcursor : cursor.Within source size) (h : Rounded source size round P)
    (hnext : ∀ items cursor', cursor'.Within source size → (∀ item ∈ items, P item) →
      After (next items) cursor' post) :
    After (many round >>= next) cursor post :=
  After.then (after_get_bind (after_rounds h _ hcursor.left cursor hcursor.tight))
    fun items cursor' hitems => hnext items cursor' (hitems.1.mono hcursor.left) hitems.2

/-- What a step from a value finds: the next value, after a token was taken, or that none is left.
-/
def Onward (source : List Char) (size : Nat) (I Q : α → TypeCursor → Prop) (value : α) :
    Option α → TypeCursor → Prop
  | some next, cursor => cursor.Within source (size - 1) ∧ I next cursor
  | none, cursor => cursor.Within source size ∧ Q value cursor

/-- What one step keeps is kept by all steps, up to where none is left. -/
theorem after_stepping {step : α → TypeReader (Option α)} {I Q : α → TypeCursor → Prop}
    (h : ∀ size' ≤ size, ∀ cursor value, cursor.Within source size' → I value cursor →
      After (step value) cursor (Onward source size' I Q value))
    (hcursor : cursor.Within source size) {value : α} (hvalue : I value cursor) :
    After (stepping step value) cursor fun value' cursor' =>
      cursor'.Within source size ∧ Q value' cursor' := by
  have hsteps : ∀ bound ≤ size, ∀ (cursor : TypeCursor) (value : α), cursor.Within source bound →
      I value cursor → After (steps TypeCursor.left (fail .stalled) step bound value) cursor
        fun value' cursor' => cursor'.Within source bound ∧ Q value' cursor' := by
    intro bound
    induction bound with
    | zero => exact fun _ cursor _ hcursor => absurd hcursor.left (Nat.not_lt_zero _)
    | succ bound ih =>
      intro hbound cursor value hcursor hvalue
      refine after_get_bind
        ((h _ (Nat.le_trans hcursor.left hbound) cursor value hcursor.tight hvalue).then
        fun found cursor' hfound => ?_)
      cases found with
      | none => exact after_pure ⟨hfound.1.mono hcursor.left, hfound.2⟩
      | some next =>
        have hless : cursor'.left < cursor.left := hfound.1.left
        refine after_get_bind (after_ite (fun _ => ?_) (absurd hless))
        refine (ih (Nat.le_of_succ_le hbound) cursor' next
          (hfound.1.mono (Nat.le_of_lt_succ hcursor.left)) hfound.2).mono fun _ _ hafter => ?_
        exact ⟨hafter.1.mono (Nat.le_succ _), hafter.2⟩
  exact after_get_bind ((hsteps _ hcursor.left cursor value hcursor.tight hvalue).mono
    fun _ _ hafter => ⟨hafter.1.mono hcursor.left, hafter.2⟩)

end

end TypeReader

end DocTypes
