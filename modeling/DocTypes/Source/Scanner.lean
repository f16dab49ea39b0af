import DocTypes.Text.Digit

/-!
# Scanners

Each scanner takes the characters at a token's start and splits off the token's text: on success
it gives the text and what follows, and the two together are what it was given. A scanner that
cannot find the end of its token says so by `none`, or by a cause where there are several.
-/

namespace DocTypes

/-- A token's text and the characters after it. -/
abbrev Split := List Char × List Char

/-- Puts characters in front of the first part of a split. -/
def Split.prepend (front : List Char) (split : Split) : Split :=
  (front ++ split.1, split.2)

/-- Can `c` start a name? -/
def isNameStart (c : Char) : Bool :=
  c.isAlpha || c == '_' || c == '$' || (c.toNat > 127 && isLetter c)

/-- Can `c` stand inside a name? -/
def isNamePart (c : Char) : Bool :=
  isNameStart c || c.isDigit || (c.toNat > 127 && isAlphanumeric c)

/-- Is `c` a hexadecimal digit? -/
def isHexDigit (c : Char) : Bool :=
  c.isDigit || (c.toLower.val ≥ 'a'.val && c.toLower.val ≤ 'f'.val)

/-- The rest of a name. -/
def scanName (cs : List Char) : Split :=
  cs.span isNamePart

/-- Why a number cannot be scanned. -/
inductive NumberCause where
  | noDigits
  | noExponent
deriving DecidableEq, Repr

/-- May `c` stand among the digits after the radix letter `radix`? -/
def isRadixDigit (radix c : Char) : Bool :=
  c == '_' ||
    match radix.toLower with
    | 'b' => c == '0' || c == '1'
    | 'o' => c.val ≥ '0'.val && c.val ≤ '7'.val
    | _ => isHexDigit c

/-- Is `c` a decimal digit or a digit separator? -/
def isSpacedDigit (c : Char) : Bool :=
  c.isDigit || c == '_'

/-- A fraction: a point and the digits after it, if there is a point. -/
def scanFraction (cs : List Char) : Split :=
  match cs with
  | '.' :: rest => Split.prepend ['.'] (rest.span isSpacedDigit)
  | _ => ([], cs)

/-- An exponent, if there is one: its mark, a sign perhaps, and at least one digit. -/
def scanExponent (cs : List Char) : Except NumberCause Split :=
  match cs with
  | c :: rest =>
    if c == 'e' || c == 'E' then
      let sign := (rest.take 1).filter fun s => s == '+' || s == '-'
      let digits := rest.drop sign.length
      match digits with
      | d :: _ =>
        if d.isDigit then .ok (Split.prepend (c :: sign) (digits.span Char.isDigit))
        else .error .noExponent
      | [] => .error .noExponent
    else .ok ([], cs)
  | [] => .ok ([], cs)

/-- The digits of a number, its radix letter, fraction and exponent included. -/
def scanMagnitude (cs : List Char) : Except NumberCause Split :=
  let decimal : Except NumberCause Split := do
    let whole := cs.span isSpacedDigit
    let fraction := scanFraction whole.2
    let exponent ← scanExponent fraction.2
    return Split.prepend (whole.1 ++ fraction.1) exponent
  match cs with
  | '0' :: radix :: rest =>
    if "xXoObB".toList.contains radix then
      let digits := rest.span (isRadixDigit radix)
      if digits.1.isEmpty then .error .noDigits else .ok (Split.prepend ['0', radix] digits)
    else decimal
  | _ => decimal

/-- A number, with the mark of a big integer if it has one. -/
def scanNumber (cs : List Char) : Except NumberCause Split := do
  let magnitude ← scanMagnitude cs
  match magnitude.2 with
  | 'n' :: rest => return (magnitude.1 ++ ['n'], rest)
  | _ => return magnitude

/-- The rest of a string up to and including the closing `quote`. A backslash takes the next
character along; a bare line break or the end of the text leaves the string open. -/
def scanString (quote : Char) : List Char → Option Split
  | [] => none
  | c :: rest =>
    if c == quote then some ([c], rest)
    else if c == '\\' then
      match rest with
      | [] => none
      | d :: rest => (scanString quote rest).map (Split.prepend [c, d])
    else if c == '\n' then none
    else (scanString quote rest).map (Split.prepend [c])

/-- A stretch of template text up to and including the closing backtick or the opening of a
substitution; the flag tells which (`true` for a substitution). -/
def scanTemplate : List Char → Option (Split × Bool)
  | [] => none
  | c :: rest =>
    if c == '\\' then
      match rest with
      | [] => none
      | d :: rest => (scanTemplate rest).map fun r => (Split.prepend [c, d] r.1, r.2)
    else if c == '\x60' then some (([c], rest), false)
    else
      match c, rest with
      | '$', '{' :: rest => some (([c, '{'], rest), true)
      | _, rest => (scanTemplate rest).map fun r => (Split.prepend [c] r.1, r.2)

/-- The rest of a regular expression up to and including the closing slash; a slash inside a
character class does not close it. -/
def scanRegexBody (inClass : Bool) : List Char → Option Split
  | [] => none
  | c :: rest =>
    if c == '\n' then none
    else if c == '\\' then
      match rest with
      | [] => none
      | d :: rest => (scanRegexBody inClass rest).map (Split.prepend [c, d])
    else if c == '/' && !inClass then some ([c], rest)
    else
      let inClass := if c == '[' then true else if c == ']' then false else inClass
      (scanRegexBody inClass rest).map (Split.prepend [c])

/-- The rest of a regular expression with its flags. -/
def scanRegex (cs : List Char) : Option Split :=
  (scanRegexBody false cs).map fun body =>
    Split.prepend body.1 (body.2.span isNamePart)

/-- The rest of a block comment up to and including its end mark. -/
def scanBlockComment : List Char → Option Split
  | [] => none
  | '*' :: '/' :: rest => some (['*', '/'], rest)
  | c :: rest => (scanBlockComment rest).map (Split.prepend [c])

/-- The punctuators, so that of two that fit the longer comes first. -/
def punctuators : List String :=
  [">>>=", "...", "===", "!==", "**=", "<<=", ">>=", ">>>", "&&=", "||=", "??=",
   "=>", "==", "!=", "<=", ">=", "&&", "||", "??", "?.", "++", "--", "+=", "-=", "*=", "/=",
   "%=", "&=", "|=", "^=", "<<", ">>", "**",
   "\x7b", "\x7d", "(", ")", "[", "]", ";", ",", "<", ">", "+", "-", "*", "/", "%", "&", "|",
   "^", "!", "~", "?", ":", "=", ".", "@"]

/-- May the punctuator be taken before `rest`? A conditional's mark before a decimal fraction is
not an optional chain. -/
def punctuatorFits (punctuator : String) (cs : List Char) : Bool :=
  punctuator.toList.isPrefixOf cs &&
    !(punctuator == "?." && ((cs.drop 2).head?.map Char.isDigit).getD false)

/-- The longest punctuator that `cs` starts with. -/
def scanPunctuator (cs : List Char) : Option Split :=
  (punctuators.find? fun p => punctuatorFits p cs).map fun p =>
    (cs.take p.length, cs.drop p.length)

end DocTypes
