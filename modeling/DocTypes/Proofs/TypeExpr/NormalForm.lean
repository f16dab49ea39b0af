import DocTypes.Proofs.TypeExpr.Insert
import DocTypes.Proofs.TypeExpr.ReadBack
import DocTypes.Proofs.TypeExpr.Reprint
import DocTypes.Proofs.TypeExpr.ReadFormed

/-!
# Texts of types in normal form

The text that a type is printed to is one that reading and printing leave as it is
(`print_readInto`), unless an optional type is in it. The type that is read need not be the one that
was printed: a point after a number may have become part of it.
-/

namespace DocTypes

/-- A type that was read is read back from its text as one with the same text. -/
theorem TypeExpr.read_print_of_read {text : List Char} {line : Nat} {type : TypeExpr}
    (h : read text line = .ok type) (hplain : type.isPlain = true) (line' : Nat) :
    ∃ again, read type.print.toList line' = .ok again ∧ again.print = type.print := by
  have hwhole := whole_of_read h
  have hlegible := legible_pointed hwhole.formed ((found_of_read h).firm hplain)
  have hread := hlegible.read_print (by rw [isOperand_pointed, hwhole.operand]) line'
  rw [print_pointed] at hread
  refine ⟨type.pointed.reread, hread, ?_⟩
  rw [print_reread hlegible.formed, print_pointed]

namespace Arena

variable {arena arena' : Arena} {key : Nat}

/-- A type that was read into an arena is printed to a text. If no optional type is in it, that text
can be read into any arena, and what is read from it is printed to this text again. -/
theorem print_readInto {text : List Char} {line : Nat}
    (hread : arena.readInto text line = .ok (key, arena')) :
    ∃ type printed, arena'.tree? key = some type ∧ arena'.print? key = some printed ∧
      (type.isPlain = true → ∀ (other : Arena) (line' : Nat),
        ∃ key' other', other.readInto printed.toList line' = .ok (key', other') ∧
          other'.print? key' = some printed) := by
  obtain ⟨type, new, htype, hforest⟩ := exists_forest hread
  have hprint : ∀ {arena : Arena} {key : Nat} {type : TypeExpr}, arena.tree? key = some type →
      arena.print? key = some type.print := by
    intro arena key type htree
    rw [print?, htree]
    rfl
  refine ⟨type, type.print, hforest.tree, hprint hforest.tree, fun hplain other line' => ?_⟩
  obtain ⟨again, hagain, htext⟩ := TypeExpr.read_print_of_read htype hplain line'
  obtain ⟨new', hforest'⟩ := storing_forest.insert again other
  refine ⟨(insert again other).1, (insert again other).2, ?_, ?_⟩
  · rw [readInto_eq, hagain]
    rfl
  · rw [hprint hforest'.tree, htext]

/-- The point between the number and the arguments is printed as part of the number. -/
theorem print_readInto_point :
    ∃ arena key, readInto {} "( A|1 .<?B>)[ ]".toList 1 = .ok (key, arena) ∧
      arena.print? key = some "(A | 1.<?B>)[]" ∧
      ∃ key' other', readInto {} "(A | 1.<?B>)[]".toList 1 = .ok (key', other') ∧
        other'.print? key' = some "(A | 1.<?B>)[]" := by
  have hread : readInto {} "( A|1 .<?B>)[ ]".toList 1 =
      .ok (7, ⟨#[⟨0, .name "A"⟩, ⟨1, .number "1"⟩, ⟨2, .name "B"⟩, ⟨3, .nullable 2 true⟩,
        ⟨4, .generic 1 [3] true⟩, ⟨5, .union [0, 4]⟩, ⟨6, .parenthesis 5⟩,
        ⟨7, .array 6⟩], []⟩) := by
    decide +kernel
  obtain ⟨type, printed, htree, hprint, hagain⟩ := print_readInto hread
  cases htree
  cases hprint
  exact ⟨_, _, hread, rfl, hagain rfl {} 1⟩

end Arena

end DocTypes
