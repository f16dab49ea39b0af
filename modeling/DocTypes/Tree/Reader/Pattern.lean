import DocTypes.Tree.Reader.Cursor

/-!
# Keys and patterns

Property keys, the targets of bindings, and the step that takes an expression that was read for the
target of an assignment.
-/

namespace DocTypes

namespace Node

/-- A node of another kind in the place of `node`. -/
def recast (node : Node) (kind : Kind) (fields : List (Field × Value)) : Node :=
  .mk kind node.id node.span node.parent node.doc fields

/-- A spread element taken for the rest of a pattern's elements. -/
def spreadToRest (convert : Node → Except Node Node) (part : Node) : Except Node Node :=
  match part.get .argument with
  | .node argument => do
    let argument ← convert argument
    return part.recast .restElement [(.argument, .node argument)]
  | _ => .error part

/-- A property of an object expression taken for one of a pattern. -/
def propertyToPattern (convert : Node → Except Node Node) (property : Node) : Except Node Node :=
  if property.kind == .spreadElement then spreadToRest convert property
  else
    match property.get .value with
    | .node value => do
      let value ← convert value
      return property.set .value (.node value)
    | _ => .error property

/-- An element of an array expression taken for one of a pattern. -/
def elementToPattern (convert : Node → Except Node Node) (element : Node) : Except Node Node :=
  if element.kind == .spreadElement then spreadToRest convert element else convert element

/-- Converts the nodes of a list and leaves its holes. -/
def convertItems (convert : Node → Except Node Node) (items : Value) : Except Node Value := do
  let items ← (items.items?.getD []).mapM fun item =>
    match item with
    | .node node => (convert node).map .node
    | hole => .ok hole
  return .list items

/-- The expression `node` taken for an assignment target, `levels` layers deep. Where it cannot be
one, the answer is the part that is to blame. -/
def toPatternTo : Nat → Node → Except Node Node
  | 0, node => .error node
  | levels + 1, node =>
    match node.kind with
    | .identifier | .memberExpression | .assignmentPattern | .objectPattern | .arrayPattern =>
      .ok node
    | .objectExpression => do
      let properties ← convertItems (propertyToPattern (toPatternTo levels)) (node.get .properties)
      return node.recast .objectPattern [(.properties, properties)]
    | .arrayExpression => do
      let elements ← convertItems (elementToPattern (toPatternTo levels)) (node.get .elements)
      return node.recast .arrayPattern [(.elements, elements)]
    | .assignmentExpression =>
      match node.get .operator, node.get .left with
      | .text "=", .node left => do
        let left ← toPatternTo levels left
        return node.recast .assignmentPattern [(.left, .node left), (.right, node.get .right)]
      | _, _ => .error node
    | _ => .error node

/-- The expression `node` taken for an assignment target, or the part of it that is none. -/
def toPattern (node : Node) : Except Node Node :=
  toPatternTo node.height node

/-- The name that a key which is not computed gives to its property, as code points. -/
def keyName? (key : Node) : Option (List Nat) :=
  match key.kind, key.get .name, key.get .value with
  | .identifier, .text name, _ => some (codePoints name.toList)
  | .literal, _, .decoded points => some points
  | _, _, _ => none

end Node

namespace TreeReader

/-- An expression as an assignment target. A part that cannot be one is blamed where it starts. -/
def assignmentTarget (node : Node) : TreeReader Node := do
  match node.toPattern with
  | .ok pattern => return pattern
  | .error part =>
    throw (.grammar .invalidTarget (positionAt (← get).source (part.start?.getD 0)))

variable (recur : Goal → TreeReader Node)

/-- A property key, and whether it is computed. -/
def propertyKey : TreeReader (Node × Bool) := do
  let token ← current
  if token.is "[" then
    skip
    let key ← allowingIn (recur .assignment)
    expect "]"
    return (key, true)
  match token.kind with
  | .name => skip; return (← identifier token, false)
  | .privateName => skip; return (← privateIdentifier token, false)
  | .string => skip; return (← stringLiteral token, false)
  | .number => skip; return (← numberLiteral token, false)
  | _ => fail (.unexpectedInKey token.text)

/-- The elements of a pattern in square brackets; holes are null. -/
def arrayPattern : TreeReader Node := do
  let start ← start
  expect "["
  let elements ← many do
    if ← isAt "]" then return none
    if ← eat "," then return some (Value.null, true)
    let element ← recur .bindingElement
    return some (.node element, ← eat ",")
  expect "]"
  finish .arrayPattern start [(.elements, .list elements)]

/-- The value of a key that stands for itself in a pattern, with its default perhaps. -/
def shorthandValue (key : Node) : TreeReader Node := do
  let span := key.span.getD ⟨0, 0⟩
  match key.get? .name with
  | none => throw .namelessKey
  | some name =>
    let value ← make .identifier span [(.name, name)]
    if ← eat "=" then
      let default ← recur .assignment
      finish .assignmentPattern span.start [(.left, .node value), (.right, .node default)]
    else return value

/-- One property of a pattern in braces. -/
def patternProperty : TreeReader Node := do
  let start ← start
  if ← eat "..." then
    let argument ← recur .bindingTarget
    finish .restElement start [(.argument, .node argument)]
  else
    let (key, computed) ← propertyKey recur
    let named ← eat ":"
    let value ← if named then recur .bindingElement else shorthandValue recur key
    finish .property start
      [(.key, .node key), (.value, .node value), (.kind, .text "init"), (.method, .bool false),
       (.shorthand, .bool !named), (.computed, .bool computed)]

/-- The properties of a pattern in braces. -/
def objectPattern : TreeReader Node := do
  let start ← start
  expect "\x7b"
  let properties ← many do
    if ← isAt "\x7d" then return none
    let property ← patternProperty recur
    return some (property, ← eat ",")
  expect "\x7d"
  finish .objectPattern start [(.properties, nodes properties)]

/-- What a binding binds: a name or a pattern. -/
def bindingTarget : TreeReader Node := do
  if ← isAt "[" then arrayPattern recur
  else if ← isAt "\x7b" then objectPattern recur
  else identifier (← expectName)

/-- A binding target with a default perhaps, or the rest of the elements. -/
def bindingElement : TreeReader Node := do
  let start ← start
  if ← eat "..." then
    let argument ← bindingTarget recur
    finish .restElement start [(.argument, .node argument)]
  else
    let target ← bindingTarget recur
    if ← eat "=" then
      let default ← recur .assignment
      finish .assignmentPattern start [(.left, .node target), (.right, .node default)]
    else return target

end TreeReader

end DocTypes
