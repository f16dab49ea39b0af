import DocTypes.Proofs.TypeExpr.ReadFormed
import DocTypes.Proofs.TypeExpr.Store

/-!
# Reading a type comes to an end

A round that goes on without taking a token and a reader whose levels are used up fail with
`stalled`, and taking a token after the last one fails with `pastEnd`. No text gives rise to either
of them (`readInto_progresses`). A reader that stalls when it is called one level down with no token
less (`TypeReader.below`) does not stall either, so every call comes after a token was taken.
-/

namespace DocTypes

theorem TypeCause.isOfText_iff {cause : TypeCause} :
    cause.isOfText = true ↔ cause ≠ .pastEnd ∧ cause ≠ .stalled := by
  cases cause <;> simp [isOfText]

/-- The reader, where less than `limit` tokens are pending. -/
def TypeReader.below (limit : Nat) (recur : TypeGoal → TypeReader TypeExpr) (goal : TypeGoal) :
    TypeReader TypeExpr := do
  if (← get).left < limit then recur goal else fail .stalled

/-- A reader that is called on fewer tokens only leaves what it leaves there. -/
theorem TypeReader.leaves_below {source : List Char} {limit : Nat}
    {recur : TypeGoal → TypeReader TypeExpr} {goal : TypeGoal} {P : TypeExpr → TypeCursor → Prop}
    (h : Leaves source limit (recur goal) P) : Leaves source limit (below limit recur goal) P := by
  intro size hsize cursor hcursor
  have hleft : cursor.left < limit := Nat.lt_of_lt_of_le hcursor.left hsize
  refine after_get_bind ?_
  rw [if_pos hleft]
  exact h size hsize cursor hcursor

/-- Reading a type into an arena gives a key or a fault of the text, whatever the text is. From each
place in the text's tokens on this holds of a reader that goes down only where a token was taken. -/
theorem Arena.readInto_progresses (arena : Arena) (text : List Char) (line : Nat) :
    ((∃ key arena', arena.readInto text line = .ok (key, arena')) ∨
      ∃ error, arena.readInto text line = .error error ∧
        error.cause ≠ .pastEnd ∧ error.cause ≠ .stalled) ∧
    ∀ tokens, TypeToken.lex text = .ok tokens → ∀ pending, pending <:+ tokens →
      ∀ goal cause offset, (TypeReader.step (TypeReader.below pending.length
        (TypeReader.level pending.length)) goal).run ⟨pending, ⟨.endOfInput, "", text.length⟩⟩ =
          .error (cause, offset) → cause ≠ .pastEnd ∧ cause ≠ .stalled := by
  refine ⟨?_, fun tokens hlex pending hpending goal cause offset hrun => ?_⟩
  · have hfound := TypeExpr.found_read text line
    rw [readInto_eq]
    cases hread : TypeExpr.read text line with
    | ok type => exact .inl ⟨_, _, rfl⟩
    | error error =>
      rw [hread] at hfound
      exact .inr ⟨error, rfl, TypeCause.isOfText_iff.1 hfound⟩
  · have hsound := TypeToken.sound_lex text
    rw [hlex] at hsound
    have hcursor : TypeCursor.Within text (pending.length + 1)
        ⟨pending, ⟨.endOfInput, "", text.length⟩⟩ :=
      ⟨⟨fun token htoken => hsound token (hpending.subset htoken), trivial⟩, ⟨rfl, rfl⟩,
        Nat.lt_succ_self _⟩
    have hstep := TypeReader.leaves_step (fun goal => TypeReader.leaves_below
      (TypeReader.leaves_level pending.length goal)) goal _ (Nat.le_refl _) _ hcursor
    rw [TypeReader.After, hrun] at hstep
    exact TypeCause.isOfText_iff.1 hstep

end DocTypes
