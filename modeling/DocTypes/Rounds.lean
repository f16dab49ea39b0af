/-!
# Bounded repetition

Readers repeat a round until it says that no other follows. A round that another follows has to take
something: what is left, as `size` measures it, has to become less. The number of rounds is bounded
by what is left in the beginning, so a reader whose rounds all do so never meets the bound.
-/

namespace DocTypes

variable {σ α : Type} {m : Type → Type} [Monad m] (size : σ → Nat)

/-- Runs a round again and again, at most `bound` times. A round gives an item, and says whether
another may follow. -/
def rounds (stalled : StateT σ m (List α))
    (round : StateT σ m (Option (α × Bool))) : Nat → StateT σ m (List α)
  | 0 => stalled
  | bound + 1 => do
    let before ← get
    match ← round with
    | none => return []
    | some (item, false) => return [item]
    | some (item, true) =>
      if size (← get) < size before then return item :: (← rounds stalled round bound) else stalled

/-- Goes on from a value to the next one, at most `bound` times, up to one that none comes after. -/
def steps (stalled : StateT σ m α) (step : α → StateT σ m (Option α)) :
    Nat → α → StateT σ m α
  | 0, _ => stalled
  | bound + 1, value => do
    let before ← get
    match ← step value with
    | none => return value
    | some next => if size (← get) < size before then steps stalled step bound next else stalled

end DocTypes
