/-!
# Binary floating-point numbers

`Binary64` holds a 64-bit floating-point number as an exact value: a sign and `m * 2 ^ q`, an
infinity, or no number. `Binary64.ofRatio` rounds a ratio of naturals to the nearest such number,
a tie to the even one, and `Binary64.bits` gives the standard 64-bit pattern.
-/

namespace DocTypes

/-- A 64-bit floating-point number. A finite one is `mantissa * 2 ^ exponent`, with the mantissa
below `2 ^ 53` and, unless the exponent is the least one, at least `2 ^ 52`. -/
inductive Binary64 where
  | finite (negative : Bool) (mantissa : Nat) (exponent : Int)
  | infinite (negative : Bool)
  | notANumber
deriving DecidableEq, Repr

namespace Binary64

/-- The least exponent of a finite number. -/
def leastExponent : Int := -1074

/-- The greatest exponent of a finite number. -/
def greatestExponent : Int := 971

/-- Zero with a sign. -/
def zero (negative : Bool) : Binary64 :=
  .finite negative 0 leastExponent

/-- `num / den` to the nearest natural, a half to the even one. -/
def roundToEven (num den : Nat) : Nat :=
  let whole := num / den
  let twice := 2 * (num % den)
  if twice < den then whole
  else if den < twice then whole + 1
  else whole + whole % 2

/-- The numerator and denominator of `num / den / 2 ^ exponent`. -/
def scaled (num den : Nat) (exponent : Int) : Nat × Nat :=
  (num * Nat.pow 2 (-exponent).toNat, den * Nat.pow 2 exponent.toNat)

/-- The exponent at which the mantissa of `num / den` has 53 bits, but no less than the least. -/
def exponentOf (num den : Nat) : Int :=
  let estimate : Int := (Nat.log2 num : Int) - Nat.log2 den - 53
  let fits (e : Int) : Bool := let r := scaled num den e; r.1 < Nat.pow 2 53 * r.2
  let exponent := if fits estimate then estimate else if fits (estimate + 1) then estimate + 1
    else estimate + 2
  max exponent leastExponent

/-- The number nearest to the ratio `num / den`, an infinity if that is too large. -/
def ofRatio (negative : Bool) (num den : Nat) : Binary64 :=
  if num == 0 || den == 0 then zero negative
  else
    let exponent := exponentOf num den
    let ratio := scaled num den exponent
    let mantissa := roundToEven ratio.1 ratio.2
    let (mantissa, exponent) :=
      if mantissa == Nat.pow 2 53 then (Nat.pow 2 52, exponent + 1) else (mantissa, exponent)
    if greatestExponent < exponent then .infinite negative
    else .finite negative mantissa exponent

/-- The 64-bit pattern. -/
def bits : Binary64 → Nat
  | .finite negative mantissa exponent =>
    let magnitude :=
      if mantissa < Nat.pow 2 52 then mantissa
      else (exponent + 1075).toNat * Nat.pow 2 52 + (mantissa - Nat.pow 2 52)
    if negative then Nat.pow 2 63 + magnitude else magnitude
  | .infinite negative => (if negative then Nat.pow 2 63 else 0) + 2047 * Nat.pow 2 52
  | .notANumber => 2047 * Nat.pow 2 52 + Nat.pow 2 51

/-- The value as an integer, if it is one. -/
def toInt? : Binary64 → Option Int
  | .finite negative mantissa exponent =>
    let ratio := scaled mantissa 1 (-exponent)
    if ratio.1 % ratio.2 == 0 then
      let magnitude : Int := ratio.1 / ratio.2
      some (if negative then -magnitude else magnitude)
    else none
  | _ => none

end Binary64

end DocTypes
