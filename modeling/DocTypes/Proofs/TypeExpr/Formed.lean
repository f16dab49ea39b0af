import DocTypes.Proofs.TypeExpr.Expand
import DocTypes.TypeExpr.Printer
import DocTypes.TypeExpr.Reader

/-!
# Types that texts can have

`TypeExpr` has more trees than reading gives: names that are no names, unions of one alternative,
fields outside objects. `isFormed` leaves these out, layer by layer. What each layer asks of its
parts is weak enough to survive when a name in the tree is replaced by another formed type, so it
says nothing about parentheses; and it is all that printing has to know about the texts that the
tree holds.
-/

namespace DocTypes

namespace TypeToken

/-- A text that is one name. -/
def isNameText : List Char → Bool
  | [] => false
  | c :: rest => isNameStart c && !isDigitLike c && rest.all isNamePart

/-- A text that is one number. -/
def isNumberText : List Char → Bool
  | [] => false
  | c :: rest => startsNumber c rest && rest.all isNumberPart

/-- A text that makes one string when it stands between quotes. -/
def isStringText (quote : Char) (inside : List Char) : Bool :=
  (quote == '"' || quote == '\'') &&
    scanString quote (inside ++ [quote]) == some (inside ++ [quote], [])

end TypeToken

open TypeToken

namespace TypeExpr

/-- The names between the points of a dotted name. -/
def pieces (text : String) : List (List Char) :=
  text.toList.splitOn '.'

/-- Is it printed in parentheses before an operator sign? -/
def isLow (type : TypeExpr) : Bool :=
  type.isLoose || type.isArrow

/-- The word that a type starts with: that of a name, with operators after it perhaps, or of a
function type. -/
def opening : TypeExpr → Option String
  | .name text => (pieces text).head?.map String.ofList
  | .generic head _ _ => head.opening
  | .array e => if e.isPrefixed || e.isLow then none else e.opening
  | .nullable e leading | .notNullable e leading => if leading || e.isLow then none else e.opening
  | .optional e => if e.isLow then none else e.opening
  | .function _ _ arrow _ => if arrow then none else some "function"
  | _ => none

/-- Is it a type, and not a field or a named parameter? -/
def isType : TypeExpr → Bool
  | .field .. | .parameter .. => false
  | _ => true

/-- Is it a type that can stand where `keyof` is an operator? -/
def isOperand (type : TypeExpr) : Bool :=
  type.isType && type.opening != some "keyof"

/-- Is it a field? -/
def isField : TypeExpr → Bool
  | .field .. => true
  | _ => false

/-- Is it a named parameter? -/
def isParameter : TypeExpr → Bool
  | .parameter .. => true
  | _ => false

/-- Is it the `this` or `new` parameter of a function type without an arrow? -/
def isReceiver : TypeExpr → Bool
  | .parameter label (some _) false false => label == "this" || label == "new"
  | _ => false

/-- Can the outermost layer be that of a type that was read? -/
def layerFormed : TypeExpr → Bool
  | .name text => (pieces text).all isNameText
  | .any | .unknown => true
  | .string text quote => isStringText quote text.toList
  | .number text => isNumberText text.toList
  | .union elements | .intersection elements => 2 ≤ elements.length && elements.all isOperand
  | .generic head arguments _ => head.isType && arguments.all isOperand
  | .array e | .optional e | .typeof e => e.isType
  | .nullable e leading | .notNullable e leading => if leading then e.isOperand else e.isType
  | .field label type _ readonly quote =>
    type.all isOperand && match quote with
    | some quote => isStringText quote label.toList
    | none => isNameText label.toList || (!readonly && isNumberText label.toList)
  | .object fields separator => fields.all isField && (separator == ',' || separator == ';')
  | .tuple elements => elements.all isOperand
  | .parameter label type _ _ => isNameText label.toList && type.all isOperand
  | .function parameters result arrow constructs =>
    result.all isOperand &&
      if arrow then parameters.all isParameter && result.isSome
      else !constructs && parameters.all fun p => p.isOperand || p.isReceiver
  | .parenthesis e | .keyof e => e.isOperand
  | .variadic element => element.all isOperand

mutual

/-- Does `p` hold of the type and of all types in it? -/
def everywhere (p : TypeExpr → Bool) (type : TypeExpr) : Bool :=
  p type && match type with
  | .name _ | .any | .unknown | .string _ _ | .number _ => true
  | .union elements | .intersection elements | .tuple elements => everywhereAll p elements
  | .generic head arguments _ => everywhere p head && everywhereAll p arguments
  | .field _ type _ _ _ | .parameter _ type _ _ => everywhereOption p type
  | .object fields _ => everywhereAll p fields
  | .function parameters result _ _ => everywhereAll p parameters && everywhereOption p result
  | .array e | .parenthesis e | .nullable e _ | .notNullable e _ | .optional e | .typeof e
  | .keyof e => everywhere p e
  | .variadic element => everywhereOption p element

/-- Does `p` hold throughout all the types? -/
def everywhereAll (p : TypeExpr → Bool) : List TypeExpr → Bool
  | [] => true
  | type :: rest => everywhere p type && everywhereAll p rest

/-- Does `p` hold throughout the type, if it is there? -/
def everywhereOption (p : TypeExpr → Bool) : Option TypeExpr → Bool
  | none => true
  | some type => everywhere p type

end

@[simp]
theorem everywhereAll_eq_all (p : TypeExpr → Bool) (types : List TypeExpr) :
    everywhereAll p types = types.all (everywhere p) := by
  induction types with
  | nil => rfl
  | cons type rest ih => rw [everywhereAll, List.all_cons, ih]

@[simp]
theorem everywhereOption_eq_all (p : TypeExpr → Bool) (type? : Option TypeExpr) :
    everywhereOption p type? = type?.all (everywhere p) := by
  cases type? <;> rfl

/-- What holds throughout a type holds of it and throughout its parts. -/
theorem everywhere_iff {p : TypeExpr → Bool} {type : TypeExpr} :
    type.everywhere p = true ↔ p type = true ∧ ∀ part ∈ type.parts, part.everywhere p = true := by
  cases type with
  | field _ type | parameter _ type => cases type <;> simp [everywhere, parts]
  | variadic type => cases type <;> simp [everywhere, parts]
  | function parameters result => cases result <;> simp [everywhere, parts, or_imp, forall_and]
  | _ => simp [everywhere, parts]

/-- A tree that a text can have. -/
def isFormed (type : TypeExpr) : Bool :=
  type.everywhere layerFormed

/-- The layers of a formed type are formed. -/
theorem isFormed_iff {type : TypeExpr} :
    type.isFormed = true ↔ type.layerFormed = true ∧ ∀ part ∈ type.parts, part.isFormed = true :=
  everywhere_iff

end TypeExpr

end DocTypes
