import DocTypes.Number.Binary64

/-!
# Shortest decimal text

The text of a floating-point number is the decimal with the fewest digits that rounds to it, of
several the one nearest to it, and of two equally near the one with the even last digit. The search
is over grids of powers of ten, coarsest first, in exact arithmetic on naturals.
-/

namespace DocTypes

/-- The decimal `digits * 10 ^ exponent`. -/
structure Decimal where
  digits : Nat
  exponent : Int
deriving DecidableEq, Repr

namespace Decimal

/-- Compares `a * 10 ^ i` with `n * 2 ^ j`. -/
def compareScaled (a : Nat) (i : Int) (n : Nat) (j : Int) : Ordering :=
  compare (a * Nat.pow 10 i.toNat * Nat.pow 2 (-j).toNat)
    (n * Nat.pow 2 j.toNat * Nat.pow 10 (-i).toNat)

/-- Does the decimal round to `mantissa * 2 ^ exponent`? It does between the midpoints to the two
neighbouring numbers, the midpoints included when the mantissa is even. Below a power of two the
neighbour is half as far away. -/
def roundsTo (d : Decimal) (mantissa : Nat) (exponent : Int) : Bool :=
  let narrow := mantissa == Nat.pow 2 52 && Binary64.leastExponent < exponent
  let low := if narrow then 4 * mantissa - 1 else 4 * mantissa - 2
  let fromLow := compareScaled d.digits d.exponent low (exponent - 2)
  let fromHigh := compareScaled d.digits d.exponent (4 * mantissa + 2) (exponent - 2)
  let even := mantissa % 2 == 0
  (fromLow == .gt || even && fromLow == .eq) && (fromHigh == .lt || even && fromHigh == .eq)

/-- The value `mantissa * 2 ^ exponent` divided by `10 ^ grid` as a ratio of naturals. -/
def onGrid (mantissa : Nat) (exponent grid : Int) : Nat × Nat :=
  (mantissa * Nat.pow 2 exponent.toNat * Nat.pow 10 (-grid).toNat,
    Nat.pow 2 (-exponent).toNat * Nat.pow 10 grid.toNat)

/-- The decimal on the grid `10 ^ grid` that rounds to the number, if there is one: the neighbour
below or above, and of both the nearer. -/
def onGrid? (mantissa : Nat) (exponent grid : Int) : Option Decimal :=
  let ratio := onGrid mantissa exponent grid
  let below : Decimal := ⟨ratio.1 / ratio.2, grid⟩
  let above : Decimal := ⟨ratio.1 / ratio.2 + 1, grid⟩
  match below.roundsTo mantissa exponent, above.roundsTo mantissa exponent with
  | true, true => some ⟨Binary64.roundToEven ratio.1 ratio.2, grid⟩
  | true, false => some below
  | false, true => some above
  | false, false => none

/-- The least `k` with `mantissa * 2 ^ exponent < 10 ^ k`, searched upwards from `k`. -/
def scaleFrom (mantissa : Nat) (exponent : Int) : Nat → Int → Int
  | 0, k => k
  | fuel + 1, k =>
    if compareScaled 1 k mantissa exponent == .gt then k
    else scaleFrom mantissa exponent fuel (k + 1)

/-- The exponent of ten just above a number that is not zero. -/
def scale (mantissa : Nat) (exponent : Int) : Int :=
  let estimate := (((Nat.log2 mantissa : Int) + exponent) * 30103) / 100000
  scaleFrom mantissa exponent 4 (estimate - 1)

/-- The decimal equal to `mantissa * 2 ^ exponent`. -/
def exact (mantissa : Nat) (exponent : Int) : Decimal :=
  ⟨mantissa * Nat.pow 2 exponent.toNat * Nat.pow 5 (-exponent).toNat, min exponent 0⟩

/-- The shortest decimal that rounds to a number that is not zero. -/
def shortest (mantissa : Nat) (exponent : Int) : Decimal :=
  let top := scale mantissa exponent
  let grids := (List.range 17).map fun (n : Nat) => top - (n : Int) - 1
  match grids.findSome? (onGrid? mantissa exponent) with
  | some d => d
  | none => exact mantissa exponent

/-- The digits of a decimal without zeros at the end. -/
def significant (d : Decimal) : List Char :=
  let digits := (Nat.toDigits 10 d.digits).reverse.dropWhile (· == '0')
  digits.reverse

end Decimal

namespace Binary64

/-- How digits with the exponent `lead` of the first digit are written: with a point for exponents
from -4 to 15, and with a point and a zero if no fraction follows; with a mark and an exponent of
at least two digits otherwise. -/
def layOut (digits : List Char) (lead : Int) : List Char :=
  if -4 ≤ lead && lead < 16 then
    if lead < 0 then '0' :: '.' :: List.replicate (-lead - 1).toNat '0' ++ digits
    else
      let whole := lead.toNat + 1
      let padded := digits ++ List.replicate (whole - digits.length) '0'
      let fraction := padded.drop whole
      padded.take whole ++ '.' :: (if fraction.isEmpty then ['0'] else fraction)
  else
    let mantissa := match digits with
      | first :: (second :: rest) => first :: '.' :: second :: rest
      | _ => digits
    let magnitude := Nat.toDigits 10 lead.natAbs
    let padded := List.replicate (2 - magnitude.length) '0' ++ magnitude
    mantissa ++ 'e' :: (if lead < 0 then '-' else '+') :: padded

/-- The text of a number. -/
def text : Binary64 → List Char
  | .finite negative mantissa exponent =>
    let magnitude :=
      if mantissa == 0 then "0.0".toList
      else
        let d := Decimal.shortest mantissa exponent
        let all := Nat.toDigits 10 d.digits
        layOut d.significant (d.exponent + all.length - 1)
    if negative then '-' :: magnitude else magnitude
  | .infinite negative => if negative then "-inf".toList else "inf".toList
  | .notANumber => "nan".toList

end Binary64

end DocTypes
