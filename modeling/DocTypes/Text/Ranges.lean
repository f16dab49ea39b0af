/-!
# Tables of character ranges

A character class given by data of a standard is a list of closed ranges of code points. A long
table is written by the lengths of its ranges and of the gaps before them.
-/

namespace DocTypes

/-- The ranges from the code point `low` on: the length of a gap, the length of the range after it,
and so on. -/
def rangesOf (low : Nat) : List Nat → List (Nat × Nat)
  | gap :: length :: lengths =>
    (low + gap, low + gap + length - 1) :: rangesOf (low + gap + length) lengths
  | _ => []

/-- Does one of the closed ranges hold the code point of `c`? -/
def inRanges (ranges : List (Nat × Nat)) (c : Char) : Bool :=
  ranges.any fun r => r.1 ≤ c.toNat && c.toNat ≤ r.2

end DocTypes
