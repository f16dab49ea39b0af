import DocTypes.Rounds

/-!
# Readers that succeed

How readers over a state are run one after the other, and what `rounds` and `steps` give: `Rounds`
lists the rounds that a reader goes through, and if the bound is not met these are all
(`run_rounds`).
-/

namespace DocTypes

variable {σ ε α β : Type}

/-- A reader goes on from where one that succeeds leads. -/
theorem run_bind_ok {first : StateT σ (Except ε) α} {later : α → StateT σ (Except ε) β}
    {state state' : σ} {value : α} (h : first.run state = .ok (value, state')) :
    (first >>= later).run state = (later value).run state' := by
  rw [StateT.run_bind, h]
  rfl

/-- A reader and the one that goes on from there. -/
theorem run_bind_eq {first : StateT σ (Except ε) α} {later : α → StateT σ (Except ε) β} {state : σ}
    {outcome : Except ε (β × σ)} (value : α) (state' : σ)
    (h : first.run state = .ok (value, state')) (hlater : (later value).run state' = outcome) :
    (first >>= later).run state = outcome :=
  (run_bind_ok h).trans hlater

/-- The rounds that lead from a state to another, and what they give. -/
inductive Rounds (size : σ → Nat) (round : StateT σ (Except ε) (Option (α × Bool))) :
    σ → List α → σ → Prop
  | stop {state state' : σ} (here : round.run state = .ok (none, state')) :
    Rounds size round state [] state'
  | last {state state' : σ} {item : α} (here : round.run state = .ok (some (item, false), state')) :
    Rounds size round state [item] state'
  | more {state state' state'' : σ} {item : α} {items : List α}
    (here : round.run state = .ok (some (item, true), state')) (less : size state' < size state)
    (later : Rounds size round state' items state'') :
    Rounds size round state (item :: items) state''

/-- The steps that lead from a value and a state to others. -/
inductive Steps (size : σ → Nat) (step : α → StateT σ (Except ε) (Option α)) : α → σ → α → σ → Prop
  | stop {state state' : σ} {value : α} (here : (step value).run state = .ok (none, state')) :
    Steps size step value state value state'
  | more {state state' state'' : σ} {value value' value'' : α}
    (here : (step value).run state = .ok (some value', state')) (less : size state' < size state)
    (later : Steps size step value' state' value'' state'') :
    Steps size step value state value'' state''

variable {size : σ → Nat} {state state' : σ}

/-- All rounds are gone through if there is one more than what is left. -/
theorem run_rounds {stalled : StateT σ (Except ε) (List α)}
    {round : StateT σ (Except ε) (Option (α × Bool))} {items : List α}
    (h : Rounds size round state items state') : ∀ {bound : Nat}, size state ≤ bound →
      (rounds size stalled round (bound + 1)).run state = .ok (items, state') := by
  induction h with
  | @stop state state' here =>
    intro _ _
    exact run_bind_eq state state rfl (run_bind_eq none state' here rfl)
  | @last state state' item here =>
    intro _ _
    exact run_bind_eq state state rfl (run_bind_eq (some (item, false)) state' here rfl)
  | @more state mid state' item items here less _ ih =>
    intro bound hbound
    obtain ⟨bound, rfl⟩ :=
      Nat.exists_eq_add_one_of_ne_zero (Nat.ne_zero_of_lt (Nat.lt_of_lt_of_le less hbound))
    refine run_bind_eq state state rfl (run_bind_eq (some (item, true)) mid here ?_)
    refine run_bind_eq mid mid rfl ?_
    rw [if_pos less]
    exact run_bind_eq items state' (ih (by omega)) rfl

/-- All steps are gone if there is one more than what is left. -/
theorem run_steps {stalled : StateT σ (Except ε) α} {step : α → StateT σ (Except ε) (Option α)}
    {value value' : α} (h : Steps size step value state value' state') :
    ∀ {bound : Nat}, size state ≤ bound →
      (steps size stalled step (bound + 1) value).run state = .ok (value', state') := by
  induction h with
  | @stop state state' value here =>
    intro _ _
    exact run_bind_eq state state rfl (run_bind_eq none state' here rfl)
  | @more state mid state' value next value' here less _ ih =>
    intro bound hbound
    obtain ⟨bound, rfl⟩ :=
      Nat.exists_eq_add_one_of_ne_zero (Nat.ne_zero_of_lt (Nat.lt_of_lt_of_le less hbound))
    refine run_bind_eq state state rfl (run_bind_eq (some next) mid here ?_)
    refine run_bind_eq mid mid rfl ?_
    rw [if_pos less]
    exact ih (by omega)

end DocTypes
