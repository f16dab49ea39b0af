/-!
# Depth-first walks

Keys that lead to other keys are walked depth first. The number of steps is bounded from outside, by
the number of keys that can come onto the stack.
-/

namespace DocTypes

/-- Visits the keys of `stack`, each with what lies below it, leaving out those `seen` before. -/
def depthFirst {m : Type → Type} [Monad m] {κ : Type} [BEq κ] (children : κ → m (List κ)) :
    Nat → List κ → List κ → m (List κ)
  | 0, _, _ => return []
  | _ + 1, [], _ => return []
  | bound + 1, key :: stack, seen =>
    if seen.contains key then depthFirst children bound stack seen
    else do
      let below ← children key
      return key :: (← depthFirst children bound (below ++ stack) (key :: seen))

end DocTypes
