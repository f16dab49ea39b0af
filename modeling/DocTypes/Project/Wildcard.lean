/-!
# Wildcards

A wildcard is a pattern for one name: `*` stands for any characters, `?` for one, and a set in
brackets for one character that it lists or, after a `!`, does not list.
-/

namespace DocTypes

/-- A set of characters, listed by closed ranges. -/
structure CharSet where
  negated : Bool
  ranges : List (Char × Char)
deriving DecidableEq, Repr

/-- Is a character in a set? -/
def CharSet.holds (set : CharSet) (c : Char) : Bool :=
  (set.ranges.any fun (low, high) => low ≤ c && c ≤ high) != set.negated

/-- A piece of a wildcard. -/
inductive WildPiece where
  | char (c : Char)
  | one
  | many
  | set (set : CharSet)
deriving DecidableEq, Repr

/-- A pattern for a name. -/
abbrev Wildcard := List WildPiece

namespace CharSet

/-- The ranges that a text lists. A hyphen between two characters makes a range of them. -/
def rangesOf : List Char → List (Char × Char)
  | low :: '-' :: high :: rest => (low, high) :: rangesOf rest
  | c :: rest => (c, c) :: rangesOf rest
  | [] => []

/-- The set that the inside of brackets writes. Ranges without a character are left out, and a `!`
that is the first one then negates as well. -/
def ofInside : List Char → CharSet
  | '!' :: rest => ⟨true, nonempty rest⟩
  | text =>
    match nonempty text with
    | ('!', '!') :: ranges => ⟨true, ranges⟩
    | ('!', high) :: ranges => ⟨true, ('-', '-') :: (high, high) :: ranges⟩
    | ranges => ⟨false, ranges⟩
where
  /-- The ranges of a text that hold a character. -/
  nonempty (text : List Char) : List (Char × Char) :=
    (rangesOf text).filter fun (low, high) => low ≤ high

/-- The text up to a closing bracket, and what follows the bracket. -/
def upToBracket? : List Char → Option (List Char × List Char)
  | [] => none
  | ']' :: rest => some ([], rest)
  | c :: rest => (upToBracket? rest).map fun (inside, after) => (c :: inside, after)

/-- The inside of brackets after the opening one, and what follows the closing one. A bracket that
is listed first, or first after a `!`, does not close. -/
def inside? : List Char → Option (List Char × List Char)
  | '!' :: ']' :: rest => (upToBracket? rest).map fun (inside, after) =>
      ('!' :: ']' :: inside, after)
  | ']' :: rest => (upToBracket? rest).map fun (inside, after) => (']' :: inside, after)
  | text => upToBracket? text

/-- What follows a bracket is shorter than what the bracket is looked for in. -/
theorem length_upToBracket? {text inside after : List Char}
    (h : upToBracket? text = some (inside, after)) : after.length < text.length := by
  fun_induction upToBracket? text generalizing inside with
  | case1 => simp at h
  | case2 => simp_all
  | case3 c rest _ ih =>
    obtain ⟨split, hsplit, hpair⟩ := Option.map_eq_some_iff.1 h
    cases hpair
    have := ih hsplit
    simp only [List.length_cons]
    omega

/-- What follows a set is shorter than the set and what follows it. -/
theorem length_inside? {text inside after : List Char} (h : inside? text = some (inside, after)) :
    after.length < text.length := by
  unfold inside? at h
  split at h
  case h_3 => exact length_upToBracket? h
  all_goals
    obtain ⟨split, hsplit, hpair⟩ := Option.map_eq_some_iff.1 h
    cases hpair
    have := length_upToBracket? hsplit
    simp only [List.length_cons]
    omega

end CharSet

namespace Wildcard

/-- Is a name written with a wildcard? -/
def isWild (name : List Char) : Bool :=
  name.any fun c => c == '*' || c == '?' || c == '['

/-- Reads a wildcard. A bracket that is not closed stands for itself. -/
def read : List Char → Wildcard
  | [] => []
  | '*' :: rest => .many :: read rest
  | '?' :: rest => .one :: read rest
  | '[' :: rest =>
    match _h : CharSet.inside? rest with
    | some (inside, after) => .set (CharSet.ofInside inside) :: read after
    | none => .char '[' :: read rest
  | c :: rest => .char c :: read rest
termination_by text => text.length
decreasing_by
  all_goals simp only [List.length_cons]
  all_goals first
    | omega
    | exact Nat.lt_succ_of_lt (CharSet.length_inside? ‹_›)

/-- Does a wildcard stand for a name? -/
def stands : Wildcard → List Char → Bool
  | [], name => name.isEmpty
  | .many :: pieces, [] => stands pieces []
  | .many :: pieces, c :: rest => stands pieces (c :: rest) || stands (.many :: pieces) rest
  | _ :: _, [] => false
  | .char d :: pieces, c :: rest => c == d && stands pieces rest
  | .one :: pieces, _ :: rest => stands pieces rest
  | .set set :: pieces, c :: rest => set.holds c && stands pieces rest
termination_by pieces name => pieces.length + name.length

end Wildcard

end DocTypes
