import DocTypes.Access
import DocTypes.Source.Literal
import DocTypes.Tree.Node

/-!
# The text of plain values

How a field's value reads as text: words for truth values and for nothing, numbers in their
shortest form, and lists in brackets with their texts quoted.
-/

namespace DocTypes

/-- The characters that code points spell, two halves of a pair together one. -/
def charsOfPoints : List Nat → List Char
  | [] => []
  | [point] => [Char.ofNat point]
  | high :: low :: rest =>
    if 0xD800 ≤ high && high ≤ 0xDBFF && 0xDC00 ≤ low && low ≤ 0xDFFF then
      Char.ofNat (0x10000 + (high - 0xD800) * 0x400 + (low - 0xDC00)) :: charsOfPoints rest
    else Char.ofNat high :: charsOfPoints (low :: rest)

/-- The text that code points spell. -/
def textOfPoints (points : List Nat) : String :=
  String.ofList (charsOfPoints points)

/-- The text of a number. An integer with too many digits has none. -/
def Number.write (number : Number) : Except AccessFault String :=
  match number with
  | .int value =>
    let digits := toString value.natAbs
    if Numeral.decimalDigitLimit < digits.length then .error .tooLong
    else .ok (if value < 0 then "-" ++ digits else digits)
  | .float value => .ok (String.ofList value.text)

namespace Value

mutual

/-- The text of a value inside a list. Nodes and what is like them have none, and neither has what
holds them. -/
def itemText : Value → Except AccessFault (Option String)
  | .null => .ok (some "None")
  | .bool true => .ok (some "True")
  | .bool false => .ok (some "False")
  | .text value => .ok (some (String.ofList (quoted value.toList)))
  | .decoded points => .ok (some (String.ofList (quoted (textOfPoints points).toList)))
  | .number value => do return some (← value.write)
  | .regex pattern flags =>
    .ok (some ("\x7b'pattern': " ++ String.ofList (quoted pattern.toList) ++ ", 'flags': " ++
      String.ofList (quoted flags.toList) ++ "\x7d"))
  | .list items => do
    return (← itemTexts items).map fun texts => "[" ++ ", ".intercalate texts ++ "]"
  | .node _ | .block _ | .tag _ | .type _ | .types | .foreign _ _ => .ok none

/-- The texts of values inside a list. -/
def itemTexts : List Value → Except AccessFault (Option (List String))
  | [] => .ok (some [])
  | value :: rest => do
    let first ← value.itemText
    let later ← itemTexts rest
    return first.bind fun first => later.map fun later => first :: later

end

/-- The text of a value that stands for a name. -/
def nameText : Value → Except AccessFault (Option String)
  | .text value => .ok (some value)
  | .decoded points => .ok (some (textOfPoints points))
  | value => value.itemText

/-- The text of a value, as it is compared with others. Halves of pairs are not like any
character. -/
def plainText : Value → Except AccessFault (Option String)
  | .null => .ok (some "null")
  | .bool true => .ok (some "true")
  | .bool false => .ok (some "false")
  | .decoded points => .ok (if points.any isSurrogate then none else some (textOfPoints points))
  | value => value.nameText

/-- Is it this text? -/
def isText (value : Value) (text : String) : Bool :=
  value.text? == some text

/-- The largest whole numbers that are written without an exponent end here. -/
def wholeLimit : Int := 1000000000000000000000

/-- The text of a literal with this value. A floating-point number that is a whole number of
moderate size is written without a fraction. -/
def literalText : Value → Except AccessFault (Option Text)
  | .text value => .ok (some ⟨quote (codePoints value.toList)⟩)
  | .decoded points => .ok (some ⟨quote points⟩)
  | .number (.float value) =>
    match value.toInt? with
    | some whole =>
      if -wholeLimit < whole && whole < wholeLimit then .ok (some (toString whole))
      else .ok (some (Text.ofChars value.text))
    | none => .ok (some (Text.ofChars value.text))
  | value => do return (← value.plainText).map Text.ofString

end Value

end DocTypes
