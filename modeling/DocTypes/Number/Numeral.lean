import DocTypes.Text.Blank
import DocTypes.Text.Digit
import DocTypes.Number.Shortest

/-!
# Reading numerals

Integers and decimals are read with the same surroundings: blanks at either end, one sign, and the
decimal digits of any script. The digits of an integer may be parted by single underscores, and a
mark such as `0x` may name its base. A decimal integer has at most `decimalDigitLimit` digits.
-/

namespace DocTypes

/-- A number: an integer of any size or a floating-point number. -/
inductive Number where
  | int (value : Int)
  | float (value : Binary64)
deriving DecidableEq, Repr

/-- The text of a number. -/
def Number.text : Number → List Char
  | .int value => (toString value).toList
  | .float value => value.text

namespace Numeral

/-- The most digits a decimal integer may have. -/
def decimalDigitLimit : Nat := 4300

/-- The blanks allowed around a numeral. -/
def isSurrounding (c : Char) : Bool :=
  if c.toNat < 128 then [' ', '\t', '\n', '\r', '\x0b', '\x0c'].contains c else isBlank c

/-- A decimal digit of any script as one of the ten common ones. -/
def plainDigit (c : Char) : Char :=
  match decimalValue? c with
  | some value => Char.ofNat ('0'.toNat + value)
  | none => c

/-- A numeral in common digits and without its surrounding blanks, split into its sign and the
rest. -/
def signed (text : List Char) : Bool × List Char :=
  match trimEndBy isSurrounding (trimStartBy isSurrounding (text.map plainDigit)) with
  | '-' :: rest => (true, rest)
  | '+' :: rest => (false, rest)
  | rest => (false, rest)

/-- The value of a digit in a base of up to 36. -/
def digitValue? (base : Nat) (c : Char) : Option Nat :=
  let value? :=
    match decimalValue? c with
    | some v => some v
    | none => if c.isAlpha then some (c.toLower.toNat - 'a'.toNat + 10) else none
  value?.filter (· < base)

/-- The groups of characters between underscores. -/
def groups : List Char → List (List Char)
  | [] => [[]]
  | c :: rest =>
    match groups rest with
    | [] => [[c]]
    | group :: later => if c == '_' then [] :: group :: later else (c :: group) :: later

/-- The value of digits in a base, single underscores between them left out. -/
def digitsValue? (base : Nat) (text : List Char) : Option Nat := do
  let parts := groups text
  guard (parts.all fun part => !part.isEmpty)
  let digits ← parts.flatten.mapM (digitValue? base)
  guard (base != 10 || digits.length ≤ decimalDigitLimit)
  return digits.foldl (fun value digit => value * base + digit) 0

/-- The base that the letter after a leading zero names. -/
def markBase? (c : Char) : Option Nat :=
  match c.toLower with
  | 'x' => some 16
  | 'o' => some 8
  | 'b' => some 2
  | _ => none

/-- The digits after a mark; one underscore may stand between. -/
def afterMark (rest : List Char) : List Char :=
  match rest with
  | '_' :: digits => digits
  | digits => digits

/-- An integer in a base, with or without the base's mark. -/
def int? (base : Nat) (text : List Char) : Option Int := do
  let (negative, body) := signed text
  let digits :=
    match body with
    | '0' :: mark :: rest => if markBase? mark == some base then afterMark rest else body
    | _ => body
  let value ← digitsValue? base digits
  return if negative then -(value : Int) else value

/-- An integer in the base that its mark names, or in base ten; then a leading zero is allowed for
zero only. -/
def markedInt? (text : List Char) : Option Int := do
  let (negative, body) := signed text
  let value ←
    match body with
    | '0' :: mark :: rest =>
      match markBase? mark with
      | some base => digitsValue? base (afterMark rest)
      | none => (digitsValue? 10 body).filter (· == 0)
    | _ => digitsValue? 10 body
  return if negative then -(value : Int) else value

/-- The floating-point number nearest to `digits * 10 ^ exponent`. Far outside the range of the
format the answer is an infinity or zero without computing the power. -/
def nearest (negative : Bool) (digits : Nat) (exponent : Int) : Binary64 :=
  let lead : Int := (Nat.toDigits 10 digits).length + exponent
  if digits == 0 || lead < -400 then Binary64.zero negative
  else if 400 < lead then .infinite negative
  else Binary64.ofRatio negative (digits * Nat.pow 10 exponent.toNat) (Nat.pow 10 (-exponent).toNat)

/-- A run of decimal digits and what follows. -/
def digitRun (text : List Char) : List Nat × List Char :=
  let split := text.span fun c => (decimalValue? c).isSome
  (split.1.filterMap decimalValue?, split.2)

/-- The number that digits spell in base ten. -/
def ofDigits (digits : List Nat) : Nat :=
  digits.foldl (fun value digit => value * 10 + digit) 0

/-- The exponent part of a decimal; all of the text has to belong to it. -/
def exponent? (text : List Char) : Option Int :=
  match text with
  | [] => some 0
  | mark :: rest =>
    if mark == 'e' || mark == 'E' then
      let (negative, digits) : Bool × List Char := match rest with
        | '-' :: digits => (true, digits)
        | '+' :: digits => (false, digits)
        | digits => (false, digits)
      match digitRun digits with
      | (run, []) =>
        if run.isEmpty then none
        else some (if negative then -(ofDigits run : Int) else ofDigits run)
      | _ => none
    else none

/-- A decimal with a fraction or an exponent perhaps, or the word for an infinity or for no
number. -/
def float? (text : List Char) : Option Binary64 := do
  let (negative, body) := signed text
  let word := String.ofList (body.map Char.toLower)
  if word == "inf" || word == "infinity" then return .infinite negative
  if word == "nan" then return .notANumber
  let (whole, rest) := digitRun body
  let (fraction, rest) := match rest with
    | '.' :: rest => digitRun rest
    | rest => ([], rest)
  guard (!(whole ++ fraction).isEmpty)
  let exponent ← exponent? rest
  return nearest negative (ofDigits (whole ++ fraction)) (exponent - fraction.length)

end Numeral

end DocTypes
