import DocTypes.TypeExpr.Basic

/-!
# Printing type expressions

`TypeExpr.print` writes a type on one line. Parentheses that the tree does not hold are put where an
operand binds looser than its place allows.
-/

namespace DocTypes

namespace TypeExpr

/-- Is it a function type with an arrow? -/
def isArrow : TypeExpr → Bool
  | .function _ _ arrow _ => arrow
  | _ => false

/-- Is it a union? -/
def isUnion : TypeExpr → Bool
  | .union _ => true
  | _ => false

/-- Is it a union or an intersection? -/
def isJoined : TypeExpr → Bool
  | .union _ | .intersection _ => true
  | _ => false

/-- Does it bind looser than an operator before or after it? -/
def isLoose : TypeExpr → Bool
  | .union _ | .intersection _ | .keyof _ | .typeof _ => true
  | _ => false

/-- Does it start with an operator that would reach over brackets after it? -/
def isPrefixed : TypeExpr → Bool
  | .nullable _ leading | .notNullable _ leading => leading
  | .variadic _ => true
  | _ => false

/-- The text in parentheses if `loose` holds. -/
def grouped (loose : Bool) (text : String) : String :=
  if loose then "(" ++ text ++ ")" else text

/-- The text of a field's or a parameter's type, with the colon. -/
def annotated : Option String → String
  | some text => ": " ++ text
  | none => ""

/-- An operand's text with the operator `sign` before or after it. -/
def affixed (leading : Bool) (sign : String) (operand : TypeExpr) (text : String) : String :=
  let inner := grouped (operand.isLoose || operand.isArrow) text
  if leading then sign ++ inner else inner ++ sign

mutual

/-- The text of a type. -/
def print : TypeExpr → String
  | .name text => text
  | .any => "*"
  | .unknown => "?"
  | .string text quote => quote.toString ++ text ++ quote.toString
  | .number text => text
  | .union elements => " | ".intercalate (printGrouped isArrow elements)
  | .intersection elements =>
    " & ".intercalate (printGrouped (fun e => e.isUnion || e.isArrow) elements)
  | .generic head arguments dotted =>
    head.print ++ (if dotted then ".<" else "<") ++
      ", ".intercalate (printGrouped (fun _ => false) arguments) ++ ">"
  | .array element =>
    grouped element.isPrefixed (grouped (element.isLoose || element.isArrow) element.print) ++ "[]"
  | .field label type isOptional readonly quote =>
    let mark := (quote.map Char.toString).getD ""
    (if readonly then "readonly " else "") ++ mark ++ label ++ mark ++
      (if isOptional then "?" else "") ++ annotated (printOption type)
  | .object fields separator =>
    "\x7b" ++ (separator.toString ++ " ").intercalate
      (printGrouped (fun _ => false) fields) ++ "\x7d"
  | .tuple elements => "[" ++ ", ".intercalate (printGrouped (fun _ => false) elements) ++ "]"
  | .parameter label type isOptional isVariadic =>
    (if isVariadic then "..." else "") ++ label ++ (if isOptional then "?" else "") ++
      annotated (printOption type)
  | .function parameters result arrow constructs =>
    let parameters := "(" ++ ", ".intercalate (printGrouped (fun _ => false) parameters) ++ ")"
    if arrow then
      (if constructs then "new " else "") ++ parameters ++ " => " ++
        (printOption result).getD "void"
    else
      "function" ++ parameters ++
        annotated ((printOption result).map
          (grouped ((result.map fun r => r.isJoined || r.isArrow).getD false)))
  | .parenthesis element => "(" ++ element.print ++ ")"
  | .nullable element leading => affixed leading "?" element element.print
  | .notNullable element leading => affixed leading "!" element element.print
  | .optional element => affixed false "=" element element.print
  | .variadic none => "..."
  | .variadic (some element) => affixed true "..." element element.print
  | .typeof element => "typeof " ++ element.print
  | .keyof element => "keyof " ++ grouped (element.isJoined || element.isArrow) element.print

/-- The texts of types, in parentheses where `loose` holds. -/
def printGrouped (loose : TypeExpr → Bool) : List TypeExpr → List String
  | [] => []
  | type :: rest => grouped (loose type) type.print :: printGrouped loose rest

/-- The text of a type that may be missing. -/
def printOption : Option TypeExpr → Option String
  | none => none
  | some type => some type.print

end

end TypeExpr

end DocTypes
