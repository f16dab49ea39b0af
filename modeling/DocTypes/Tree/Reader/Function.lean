import DocTypes.Tree.Reader.Pattern

/-!
# Blocks, functions and classes
-/

namespace DocTypes.TreeReader

variable (recur : Goal → TreeReader Node)

/-- Statements in braces. -/
def block : TreeReader Node := do
  let start ← start
  expect "\x7b"
  let body ← many do
    if ← isAt "\x7d" then return none
    if ← isAtKind .endOfInput then fail .openBlock
    return some (← recur .statement, true)
  skip
  finish .blockStatement start [(.body, nodes body)]

/-- Parameters in parentheses. -/
def parameters : TreeReader (List Node) := do
  expect "("
  let parameters ← many do
    if ← isAt ")" then return none
    let parameter ← bindingElement recur
    return some (parameter, ← eat ",")
  expect ")"
  return parameters

/-- The parameters and the body of a function. -/
def functionRest (isAsync isGenerator : Bool) : TreeReader (List Node × Node) :=
  within (fun _ => Scope.function isAsync isGenerator) do
    let parameters ← parameters recur
    let body ← block recur
    return (parameters, body)

/-- The fields of a function. -/
def functionFields (name? : Option Node) (parameters : List Node) (body : Node)
    (isAsync isGenerator : Bool) : List (Field × Value) :=
  [(.id, .ofNode? name?), (.params, nodes parameters), (.body, .node body),
   (.isAsync, .bool isAsync), (.generator, .bool isGenerator)]

/-- A function with the word `function`. As a declaration it has a name, unless `mayLackName`. -/
def function (declared mayLackName : Bool) : TreeReader Node := do
  let start ← start
  let isAsync ← eat "async"
  expect "function"
  let isGenerator ← eat "*"
  let name? ← (do
    if ← isAtKind .name then return some (← identifier (← advance))
    else if declared && !mayLackName then fail .noFunctionName
    else return none)
  let (parameters, body) ← functionRest recur isAsync isGenerator
  finish (if declared then .functionDeclaration else .functionExpression) start
    (functionFields name? parameters body isAsync isGenerator)

/-- The function that a method is, from its parameters on. -/
def methodValue (isAsync isGenerator : Bool) : TreeReader Node := do
  let start ← start
  let (parameters, body) ← functionRest recur isAsync isGenerator
  finish .functionExpression start (functionFields none parameters body isAsync isGenerator)

/-- The punctuators after which a word such as `static` or `get` is itself a key. -/
def keyEnds : List String :=
  ["(", "=", ";", "\x7d", ",", ":"]

/-- Is the next word a modifier, and not itself a key? -/
def modifierAhead : TreeReader Bool := do
  let next ← peek 1
  return next.kind != .endOfInput && !(next.kind == .punctuator && keyEnds.contains next.text)

/-- What may stand before a key: `async`, an asterisk, and `get` or `set`. -/
def keyModifiers : TreeReader (Bool × Bool × Option String) := do
  let isAsync ← (do
    if (← isAt "async") && (← modifierAhead) && !(← peek 1).afterBreak then
      skip
      return true
    else return false)
  let isGenerator ← eat "*"
  let accessor? ← (do
    if ((← isAt "get") || (← isAt "set")) && (← modifierAhead) then return some (← advance).text
    else return none)
  return (isAsync, isGenerator, accessor?)

/-- A method of a class, from its parameters on. A method that is neither static nor computed nor
an accessor and is called `constructor` is the constructor. -/
def method (start : Nat) (key : Node) (computed isStatic isAsync isGenerator : Bool)
    (accessor? : Option String) : TreeReader Node := do
  let constructs := !isStatic && !computed && accessor?.isNone &&
    key.keyName? == some (codePoints "constructor".toList)
  let kind := if constructs then "constructor" else accessor?.getD "method"
  let value ← methodValue recur isAsync isGenerator
  finish .methodDefinition start
    [(.key, .node key), (.value, .node value), (.kind, .text kind), (.computed, .bool computed),
     (.isStatic, .bool isStatic)]

/-- A field of a class, from its value on. -/
def classField (start : Nat) (key : Node) (computed isStatic : Bool) : TreeReader Node := do
  let value? ← (do
    if ← eat "=" then return some (← within Scope.member (recur .assignment)) else return none)
  semicolon
  finish .propertyDefinition start
    [(.key, .node key), (.value, .ofNode? value?), (.computed, .bool computed),
     (.isStatic, .bool isStatic)]

/-- A member of a class: a static block, a method or a field. -/
def classMember : TreeReader Node := do
  let start ← start
  let isStatic ← (do
    if (← isAt "static") && (← modifierAhead) then
      skip
      return true
    else return false)
  if isStatic && (← isAt "\x7b") then
    let block ← within Scope.member (block recur)
    finish .staticBlock start [(.body, block.get .body)]
  else
    let (isAsync, isGenerator, accessor?) ← keyModifiers
    let (key, computed) ← propertyKey recur
    if ← isAt "(" then method recur start key computed isStatic isAsync isGenerator accessor?
    else classField recur start key computed isStatic

/-- The members of a class in braces; semicolons between them are passed over. -/
def classBody : TreeReader Node := do
  let start ← start
  expect "\x7b"
  let members ← many do
    if ← eat "\x7d" then return none
    if ← eat ";" then return some (none, true)
    if ← isAtKind .endOfInput then fail .openClass
    return some (some (← classMember recur), true)
  finish .classBody start [(.body, nodes (members.reduceOption))]

/-- A class. As a declaration it has a name, unless `mayLackName`. -/
def classDefinition (declared mayLackName : Bool) : TreeReader Node := do
  let start ← start
  expect "class"
  let name? ← (do
    if (← isAtKind .name) && !(← isAt "extends") then return some (← identifier (← advance))
    else if declared && !mayLackName then fail .noClassName
    else return none)
  let superClass? ← (do
    if ← eat "extends" then return some (← recur .leftHandSide) else return none)
  let body ← classBody recur
  finish (if declared then .classDeclaration else .classExpression) start
    [(.id, .ofNode? name?), (.superClass, .ofNode? superClass?), (.body, .node body)]

end DocTypes.TreeReader
