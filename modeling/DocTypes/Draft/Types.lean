import DocTypes.Draft.Load
import DocTypes.Program.View

/-!
# Types of a draft

The arena of a draft is a thing with a list of slots, and every key is a place in this list. What a
type says is read from the attributes of its slot, whatever an edit made of them.
-/

namespace DocTypes.Draft

/-- The arena of the program. -/
def types (draft : Draft) : Except AccessFault Datum :=
  draft.get (.thing draft.root) "types"

/-- What an arena holds under a key. -/
def slot (draft : Draft) (arena key : Datum) : Except AccessFault Datum := do
  draft.itemAt (← draft.get arena "slots") (← key.asInt)

/-- The items of a list, or a single datum that is there. -/
def flat (draft : Draft) (datum : Datum) : List Datum :=
  match draft.thing? datum with
  | some (.list items) => items
  | _ => if datum.isNull then [] else [datum]

/-- The keys of the parts of a type. -/
def parts (draft : Draft) (arena key : Datum) : Except AccessFault (List Datum) := do
  let slot ← draft.slot arena key
  let kind ← draft.get slot "type"
  if draft.hasNoKind slot then throw .misfit
  match kind.text?.filter TypeShape.kindTexts.contains with
  | none => throw .noEntry
  | some kind =>
    (childNames kind).flatMapM fun name => return draft.flat (← draft.get slot name)

/-- The names of the attributes that a type of a kind is made with, its kind and key left out. -/
def declaredNames (kind : String) : List String :=
  match kind with
  | "TypeName" | "TypeNumber" => ["value"]
  | "TypeStringValue" => ["value", "quote"]
  | "TypeUnion" | "TypeIntersection" | "TypeTuple" => ["elements"]
  | "TypeGeneric" => ["left", "elements", "dot"]
  | "TypeArray" | "TypeParenthesis" | "TypeTypeof" | "TypeKeyof" => ["element"]
  | "TypeObjectField" => ["name", "right", "optional", "readonly", "quote"]
  | "TypeObject" => ["fields", "separator"]
  | "TypeKeyValue" => ["name", "right", "optional", "variadic"]
  | "TypeFunction" => ["parameters", "return_type", "arrow", "constructor"]
  | "TypeNullable" | "TypeNotNullable" | "TypeOptional" | "TypeVariadic" => ["element", "prefix"]
  | _ => []

/-- What a type says, by name. -/
def typeFacts (draft : Draft) (slot : Datum) : Except AccessFault (List (String × Datum)) :=
  match draft.thing? slot with
  | some (.record (.type kind) _) =>
    ("type" :: "key" :: declaredNames kind).mapM fun name => return (name, ← draft.get slot name)
  | _ => .error .noAttribute

/-- How many keys a slot can name. -/
def keyCount (draft : Draft) (slot : Datum) : Nat :=
  match draft.thing? slot with
  | some (.record _ attributes) =>
    (attributes.map fun a => (draft.flat a.2).length).foldl (· + ·) 0
  | _ => 0

/-- The keys reachable from a key, the key itself first, each once and in the order of a depth-first
walk. A slot has a key counted from either end, and the first two also go by truth values; with each
of its keys it puts its parts on the stack once. -/
def reachable (draft : Draft) (arena key : Datum) : Except AccessFault (List Datum) := do
  let slots ← draft.itemsOf arena "slots"
  let bound := (slots.map draft.keyCount).foldl (· + ·) 0
  depthFirst (draft.parts arena) (3 * bound + 2) [key] []

/-- The keys of the slots that were overwritten. A text lists none. -/
def replaced (draft : Draft) (arena : Datum) : Except AccessFault (List Datum) := do
  match ← draft.get arena "replaced" with
  | .text "" | .decoded [] => return []
  | .text _ | .decoded _ => throw .misfit
  | keys => if draft.isTrue keys then draft.items keys else return []

/-- Was a slot overwritten that is reachable from the key? -/
def touched (draft : Draft) (arena key : Datum) : Except AccessFault Bool := do
  if draft.isTrue (← draft.get arena "replaced") then
    let keys ← draft.reachable arena key
    return keys.any (← draft.replaced arena).contains
  else return false

/-- Gives the slot of a key what the slot of another key holds. The parts are shared by both. -/
def replace (arena key source : Datum) (draft : Draft) : Except AccessFault Draft := do
  let slots ← draft.get arena "slots"
  match draft.thing? (← draft.slot arena source) with
  | some (.record sort attributes) =>
    let (content, draft) := draft.add (.record sort (assignName "key" key attributes))
    let draft ← draft.assignAt slots (← key.asInt) content
    draft.addMember (← draft.get arena "replaced") key
  | _ => throw .noAttribute

/-- The keys of the slots that were overwritten, in ascending order. -/
def replacedKeys (draft : Draft) (arena : Datum) : Except AccessFault (List Datum) := do
  let keys ← (← draft.itemsOf arena "replaced").mapM fun key => return (key, ← key.asInt)
  return (keys.mergeSort fun a b => decide (a.2 ≤ b.2)).map (·.1)

/-- A quoted text as a type. -/
def quotedType (text quote : String) : TypeExpr :=
  match quote.toList with
  | [mark] => .string text mark
  | _ => .name (quote ++ text ++ quote)

/-- A field as a type. -/
def fieldType (name quote : String) (type : Option TypeExpr) (optional readonly : Bool) :
    TypeExpr :=
  match quote.toList with
  | [mark] => .field name type optional readonly (some mark)
  | _ => .field (quote ++ name ++ quote) type optional readonly none

/-- Fields in braces as a type. -/
def objectType (fields : List TypeExpr) (separator : String) : TypeExpr :=
  match separator.toList with
  | [sign] => .object fields sign
  | _ => .name ("\x7b" ++ (separator ++ " ").intercalate (fields.map TypeExpr.print) ++ "\x7d")

/-- The type in a slot, over a function that gives the types below it. Where a type may be left out,
nothing is printed for one that is missing. -/
def typeIn (draft : Draft) (part : Datum → Except AccessFault TypeExpr) (slot : Datum) :
    Except AccessFault TypeExpr := do
  let partOrNothing (key : Datum) : Except AccessFault TypeExpr :=
    if key.isNull then .ok (.name "") else part key
  let element (name : String) : Except AccessFault TypeExpr := do
    partOrNothing (← draft.get slot name)
  let elements (name : String) : Except AccessFault (List TypeExpr) := do
    (← draft.itemsOf slot name).mapM partOrNothing
  let part? (name : String) : Except AccessFault (Option TypeExpr) := do
    let key ← draft.get slot name
    if key.isNull then return none else return some (← part key)
  let text (name : String) : Except AccessFault String := do (← draft.get slot name).asText
  let flag (name : String) : Except AccessFault Bool := draft.flag slot name
  match ← (← draft.get slot "type").asText with
  | "TypeName" => return .name (← text "value")
  | "TypeAny" => return .any
  | "TypeUnknown" => return .unknown
  | "TypeStringValue" => return quotedType (← text "value") (← text "quote")
  | "TypeNumber" => return .number (← text "value")
  | "TypeUnion" => return .union (← (← draft.itemsOf slot "elements").mapM part)
  | "TypeIntersection" => return .intersection (← elements "elements")
  | "TypeGeneric" =>
    return .generic (← element "left") (← elements "elements") (← flag "dot")
  | "TypeArray" => return .array (← part (← draft.get slot "element"))
  | "TypeObjectField" =>
    return fieldType (← text "name") (← text "quote") (← part? "right") (← flag "optional")
      (← flag "readonly")
  | "TypeObject" =>
    if ← flag "fields" then return objectType (← elements "fields") (← text "separator")
    else return .object [] ','
  | "TypeTuple" => return .tuple (← elements "elements")
  | "TypeKeyValue" =>
    return .parameter (← text "name") (← part? "right") (← flag "optional") (← flag "variadic")
  | "TypeFunction" =>
    return .function (← elements "parameters") (← part? "return_type") (← flag "arrow")
      (← flag "constructor")
  | "TypeParenthesis" => return .parenthesis (← element "element")
  | "TypeNullable" => return .nullable (← element "element") (← flag "prefix")
  | "TypeNotNullable" => return .notNullable (← element "element") (← flag "prefix")
  | "TypeOptional" =>
    let operand ← element "element"
    if ← flag "prefix" then return .name (TypeExpr.affixed true "=" operand operand.print)
    else return .optional operand
  | "TypeVariadic" =>
    match ← part? "element", ← flag "prefix" with
    | operand?, true => return .variadic operand?
    | none, false => return .name "..."
    | some operand, false => return .name (TypeExpr.affixed false "..." operand operand.print)
  | "TypeTypeof" => return .typeof (← element "element")
  | "TypeKeyof" => return .keyof (← element "element")
  | _ => throw .noAttribute

/-- The type below a key, if it is at most `depth` layers deep. -/
def typeTo (draft : Draft) (arena : Datum) : Nat → Datum → Except AccessFault TypeExpr
  | 0, _ => .error .noPlace
  | depth + 1, key => do draft.typeIn (typeTo draft arena depth) (← draft.slot arena key)

/-- How the type below a key reads. Without a cycle it has no more layers than there are things. A
name reads as its value, even if an edit made that something else than a text. -/
def typeText (draft : Draft) (arena key : Datum) : Except AccessFault Datum := do
  if key.isNull then return .text ""
  let slot ← draft.slot arena key
  match draft.kind? slot with
  | some "TypeName" | some "TypeNumber" => draft.get slot "value"
  | _ => return .text (← draft.typeTo arena (draft.things.size + 1) key).print

/-- Adds a slot to an arena, and gives its key. -/
def addSlot (arena : Datum) (kind : String) (attributes : List (String × Datum)) (draft : Draft) :
    Except AccessFault (Datum × Draft) := do
  let slots ← draft.get arena "slots"
  let key := Datum.nat (← draft.items slots).length
  let (slot, draft) := draft.add <|
    .record (.type kind) ([("type", .text kind), ("key", key)] ++ attributes)
  return (key, ← draft.append slots slot)

/-- Adds the slots of a type to an arena, and gives the key of the whole. -/
def addType (arena : Datum) (type : TypeExpr) (draft : Draft) :
    Except AccessFault (Datum × Draft) := do
  let size := (← draft.itemsOf arena "slots").length
  let (key, grown) := Arena.insert type ⟨Array.replicate size ⟨0, .any⟩, []⟩
  let draft ← (grown.slots.toList.drop size).foldlM (fun draft node => do
    let (attributes, draft) := (loadAttributes 0 node.shape.attributes).run draft
    return (← draft.addSlot arena node.shape.kindText attributes).2) draft
  return (.nat key, draft)

end DocTypes.Draft
