import DocTypes.Number.Numeral
import DocTypes.Text.CodePoint

/-!
# Values of literals

What a number and a string of the source stand for. Strings are lists of code points, because
escapes can spell surrogates. `quote` goes the other way: it writes a string between single quotes.
-/

namespace DocTypes

/-- Why a literal has no value. -/
inductive LiteralFault where
  /-- a number or an escape that does not spell an integer or a decimal -/
  | notANumeral
  /-- an escape with an opening brace and no closing one -/
  | openEscape
  /-- an escape for a number that is no code point -/
  | noCodePoint
  /-- an escape for a number that no machine word holds -/
  | codeTooLarge
deriving DecidableEq, Repr

/-- The value of a numeral, or the fault that there is none. -/
def numeralOr (value? : Option α) : Except LiteralFault α :=
  match value? with
  | some value => .ok value
  | none => .error .notANumeral

/-- The value of a number literal. Separators are left out; a mark names the base; a leading zero
means base eight unless a digit forbids it; a point or an exponent makes a floating-point number. -/
def numberValue (literal : List Char) : Except LiteralFault Number :=
  let text := literal.filter (· != '_')
  let int (value? : Option Int) : Except LiteralFault Number := (numeralOr value?).map .int
  if text.getLast? == some 'n' then int (Numeral.markedInt? text.dropLast)
  else if text.head? == some '0' && (text[1]?.map "xXoObB".toList.contains).getD false then
    int (Numeral.markedInt? text)
  else if 1 < text.length && text.head? == some '0' && text.all isDigitLike then
    if text.contains '8' || text.contains '9' then int (Numeral.int? 10 text)
    else int (Numeral.int? 8 text)
  else if text.contains '.' || text.contains 'e' || text.contains 'E' then
    (numeralOr (Numeral.float? text)).map .float
  else int (Numeral.int? 10 text)

/-- The code point that hexadecimal digits of an escape spell. -/
def escapedCode (digits : List Char) : Except LiteralFault Nat := do
  let value ← numeralOr (Numeral.int? 16 digits)
  if value < -0x80000000 || 0x80000000 ≤ value then throw .codeTooLarge
  if value < 0 || 0x110000 ≤ value then throw .noCodePoint
  return value.toNat

/-- The character that a letter stands for after a backslash. -/
def simpleEscape? : Char → Option Nat
  | 'n' => some 10
  | 't' => some 9
  | 'r' => some 13
  | 'b' => some 8
  | 'f' => some 12
  | 'v' => some 11
  | '0' => some 0
  | _ => none

/-- What the escape of `point` means, and the code points after it. A backslash before a line break
means nothing, and before any other character that character. -/
def decodeEscape (point : Nat) (rest : List Nat) : Except LiteralFault (List Nat × List Nat) :=
  match simpleEscape? (shownChar point) with
  | some code => .ok ([code], rest)
  | none =>
    match shownChar point, rest.map shownChar with
    | 'x', chars => return ([← escapedCode (chars.take 2)], rest.drop 2)
    | 'u', '{' :: braced =>
      if braced.contains '}' then
        let digits := braced.takeWhile (· != '}')
        return ([← escapedCode digits], rest.drop (digits.length + 2))
      else .error .openEscape
    | 'u', chars => return ([← escapedCode (chars.take 4)], rest.drop 4)
    | '\r', '\n' :: _ => .ok ([], rest.drop 1)
    | '\n', _ => .ok ([], rest)
    | _, _ => .ok ([point], rest)

/-- The value of a string's inside, of which at most `fuel` characters and escapes. -/
def decodeString : Nat → List Nat → Except LiteralFault (List Nat)
  | 0, _ => .ok []
  | fuel + 1, text =>
    match text with
    | [] => .ok []
    | [point] => .ok [point]
    | point :: escaped :: rest =>
      if shownChar point == '\\' then do
        let (codes, rest) ← decodeEscape escaped rest
        return codes ++ (← decodeString fuel rest)
      else return point :: (← decodeString fuel (escaped :: rest))

/-- The value of a string literal, given with its quotes. -/
def stringValue (literal : List Nat) : Except LiteralFault (List Nat) :=
  let inside := (literal.drop 1).dropLast
  decodeString inside.length inside

/-- A code point of a string as it is written between single quotes. -/
def quotePoint (point : Nat) : List Nat :=
  if point == '\n'.toNat then codePoints ['\\', 'n']
  else if point == '\r'.toNat then codePoints ['\\', 'r']
  else if point == '\t'.toNat then codePoints ['\\', 't']
  else if point == '\\'.toNat then codePoints ['\\', '\\']
  else if point == '\''.toNat then codePoints ['\\', '\'']
  else if point < 32 then codePoints ('\\' :: 'x' :: hexPair point)
  else [point]
where
  /-- Two hexadecimal digits. -/
  hexPair (n : Nat) : List Char := [Nat.digitChar (n / 16), Nat.digitChar (n % 16)]

/-- A string between single quotes. -/
def quote (points : List Nat) : List Nat :=
  '\''.toNat :: points.flatMap quotePoint ++ ['\''.toNat]

end DocTypes
