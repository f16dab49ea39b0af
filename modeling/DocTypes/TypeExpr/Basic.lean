/-!
# Type expressions

`TypeExpr` is a type as it is written between the braces of a documentation tag. The fields of an
object type and the named parameters of a function type are expressions of their own, because they
are stored, selected and counted like types.
-/

namespace DocTypes

/-- A type expression. -/
inductive TypeExpr where
  /-- A name, dotted perhaps. -/
  | name (text : String)
  /-- The type of every value, `*`. -/
  | any
  /-- A bare `?`. -/
  | unknown
  /-- A quoted string; `text` is what stands between the quotes. -/
  | string (text : String) (quote : Char)
  /-- A number. -/
  | number (text : String)
  /-- Alternatives parted by `|`. -/
  | union (elements : List TypeExpr)
  /-- Parts joined by `&`. -/
  | intersection (elements : List TypeExpr)
  /-- A head with arguments in angle brackets; `dotted` if a point stands before them. -/
  | generic (head : TypeExpr) (arguments : List TypeExpr) (dotted : Bool)
  /-- An element type with `[]`. -/
  | array (element : TypeExpr)
  /-- A field of an object type. -/
  | field (name : String) (type : Option TypeExpr) (optional readonly : Bool) (quote : Option Char)
  /-- Fields in braces; `separator` is the sign between them. -/
  | object (fields : List TypeExpr) (separator : Char)
  /-- Elements in square brackets. -/
  | tuple (elements : List TypeExpr)
  /-- A named parameter of a function type. -/
  | parameter (name : String) (type : Option TypeExpr) (optional variadic : Bool)
  /-- A function type, written with an arrow or with the word `function`. -/
  | function (parameters : List TypeExpr) (result : Option TypeExpr) (arrow constructs : Bool)
  /-- A type in parentheses. -/
  | parenthesis (element : TypeExpr)
  /-- A type with `?`, before it if `leading`. -/
  | nullable (element : TypeExpr) (leading : Bool)
  /-- A type with `!`, before it if `leading`. -/
  | notNullable (element : TypeExpr) (leading : Bool)
  /-- A type with `=` after it. -/
  | optional (element : TypeExpr)
  /-- A type after `...`, or the dots alone. -/
  | variadic (element : Option TypeExpr)
  /-- The type of a value. -/
  | typeof (element : TypeExpr)
  /-- The keys of a type. -/
  | keyof (element : TypeExpr)
deriving Repr

/-- One layer of a type, with its parts in the form `κ`, as trees or as keys. The constructors are
those of `TypeExpr`. -/
inductive TypeShape (κ : Type) where
  | name (text : String)
  | any
  | unknown
  | string (text : String) (quote : Char)
  | number (text : String)
  | union (elements : List κ)
  | intersection (elements : List κ)
  | generic (head : κ) (arguments : List κ) (dotted : Bool)
  | array (element : κ)
  | field (name : String) (type : Option κ) (optional readonly : Bool) (quote : Option Char)
  | object (fields : List κ) (separator : Char)
  | tuple (elements : List κ)
  | parameter (name : String) (type : Option κ) (optional variadic : Bool)
  | function (parameters : List κ) (result : Option κ) (arrow constructs : Bool)
  | parenthesis (element : κ)
  | nullable (element : κ) (leading : Bool)
  | notNullable (element : κ) (leading : Bool)
  | optional (element : κ)
  | variadic (element : Option κ)
  | typeof (element : κ)
  | keyof (element : κ)
deriving DecidableEq, Repr

/-- The parts, in order. -/
def TypeShape.children {κ : Type} : TypeShape κ → List κ
  | .name _ | .any | .unknown | .string _ _ | .number _ => []
  | .union elements | .intersection elements | .tuple elements => elements
  | .generic head arguments _ => head :: arguments
  | .field _ type _ _ _ | .parameter _ type _ _ => type.toList
  | .object fields _ => fields
  | .function parameters result _ _ => parameters ++ result.toList
  | .array e | .parenthesis e | .nullable e _ | .notNullable e _ | .optional e | .typeof e
  | .keyof e => [e]
  | .variadic element => element.toList

/-- The type with this layer. -/
@[simp]
def TypeShape.whole : TypeShape TypeExpr → TypeExpr
  | .name text => .name text
  | .any => .any
  | .unknown => .unknown
  | .string text quote => .string text quote
  | .number text => .number text
  | .union elements => .union elements
  | .intersection elements => .intersection elements
  | .generic head arguments dotted => .generic head arguments dotted
  | .array element => .array element
  | .field text type maybe readonly quote => .field text type maybe readonly quote
  | .object fields separator => .object fields separator
  | .tuple elements => .tuple elements
  | .parameter text type maybe rest => .parameter text type maybe rest
  | .function parameters result arrow constructs => .function parameters result arrow constructs
  | .parenthesis element => .parenthesis element
  | .nullable element leading => .nullable element leading
  | .notNullable element leading => .notNullable element leading
  | .optional element => .optional element
  | .variadic element => .variadic element
  | .typeof element => .typeof element
  | .keyof element => .keyof element

end DocTypes
