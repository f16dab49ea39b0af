import DocTypes.Tree.Reader.Function

/-!
# Expressions
-/

namespace DocTypes.TreeReader

/-- The words that start a statement and never an expression. -/
def statementWords : List String :=
  ["break", "case", "catch", "class", "const", "continue", "debugger", "default", "do", "else",
   "export", "finally", "for", "function", "if", "return", "switch", "throw", "try", "var",
   "while", "with"]

/-- The assignment operators. -/
def assignmentOperators : List String :=
  ["=", "+=", "-=", "*=", "/=", "%=", "**=", "<<=", ">>=", ">>>=", "&=", "|=", "^=", "&&=", "||=",
   "??="]

/-- How tightly a binary operator binds, from one on. -/
def binaryRank? : String → Option Nat
  | "??" => some 1
  | "||" => some 2
  | "&&" => some 3
  | "|" => some 4
  | "^" => some 5
  | "&" => some 6
  | "==" | "!=" | "===" | "!==" => some 7
  | "<" | ">" | "<=" | ">=" | "instanceof" | "in" => some 8
  | "<<" | ">>" | ">>>" => some 9
  | "+" | "-" => some 10
  | "*" | "/" | "%" => some 11
  | "**" => some 12
  | _ => none

/-- Is it an operator that may leave its right operand alone? -/
def isLogical (operator : String) : Bool :=
  operator == "||" || operator == "&&" || operator == "??"

/-- The operators before an operand. -/
def unaryOperators : List String :=
  ["!", "~", "+", "-", "typeof", "void", "delete"]

/-- Is it `++` or `--`? -/
def isUpdate (token : Token) : Bool :=
  token.isPunctuator "++" || token.isPunctuator "--"

/-- From an opening bracket on: does an arrow follow the matching closing one, on the same line?
`depth` counts the brackets that are open. -/
def arrowFollows (depth : Nat) : List Token → Bool
  | [] => false
  | token :: rest =>
    if token.kind == .punctuator && ["(", "[", "\x7b"].contains token.text then
      arrowFollows (depth + 1) rest
    else if token.kind == .punctuator && [")", "]", "\x7d"].contains token.text then
      if depth == 1 then (rest.head?.map fun next =>
        next.text == "=>" && !next.afterBreak).getD false
      else arrowFollows (depth - 1) rest
    else arrowFollows depth rest

/-- Does `function` follow on the same line? -/
def functionFollows : TreeReader Bool := do
  let next ← peek 1
  return next.text == "function" && !next.afterBreak

variable (recur : Goal → TreeReader Node)

/-- An expression that may be spread over its place. -/
def spreadable : TreeReader Node := do
  let start ← start
  if ← eat "..." then
    let argument ← recur .assignment
    finish .spreadElement start [(.argument, .node argument)]
  else recur .assignment

/-- An expression in parentheses. The parentheses leave no trace. -/
def parenthesized : TreeReader Node := do
  expect "("
  let expression ← allowingIn (recur .expression)
  expect ")"
  return expression

/-- Arguments in parentheses. -/
def arguments : TreeReader (List Node) := do
  expect "("
  let arguments ← allowingIn <| many do
    if ← isAt ")" then return none
    let argument ← spreadable recur
    return some (argument, ← eat ",")
  expect ")"
  return arguments

/-- A property in square brackets. -/
def computedProperty : TreeReader Node := do
  expect "["
  let property ← allowingIn (recur .expression)
  expect "]"
  return property

/-- The property after a point. -/
def namedProperty : TreeReader Node := do
  let token ← current
  match token.kind with
  | .name => skip; identifier token
  | .privateName => skip; privateIdentifier token
  | _ => fail (.expectedProperty token.text)

/-- Does the token start a template? -/
def startsTemplate (token : Token) : Bool :=
  token.kind == .template && token.text.toList.head? == some '\x60'

/-- The text of one stretch of a template, and whether it is the last. -/
def templateElement (token : Token) : TreeReader (Node × Bool) := do
  let inside := token.text.toList.drop 1
  let isTail := !(['{', '$'].isPrefixOf inside.reverse)
  let marks := if isTail then 1 else 2
  let raw := String.ofList (inside.take (inside.length - marks))
  let element ← make .templateElement ⟨token.span.start + 1, token.span.stop - marks⟩
    [(.raw, .text raw), (.cooked, .text raw), (.tail, .bool isTail)]
  return (element, isTail)

/-- A template with its substitutions. -/
def template : TreeReader Node := do
  let start ← start
  let parts ← allowingIn <| many do
    let token ← current
    if token.kind != .template then fail .openTemplate
    skip
    let (element, isTail) ← templateElement token
    if isTail then return some ((element, none), false)
    let expression ← recur .expression
    let next ← current
    if !(next.kind == .template && next.text.toList.head? == some '}') then fail .openSubstitution
    return some ((element, some expression), true)
  finish .templateLiteral start
    [(.quasis, nodes (parts.map (·.1))), (.expressions, nodes (parts.filterMap (·.2)))]

/-- The elements of an array; holes are null. -/
def array : TreeReader Node := do
  let start ← start
  expect "["
  let elements ← allowingIn <| many do
    if ← isAt "]" then return none
    if ← eat "," then return some (Value.null, true)
    let element ← spreadable recur
    return some (.node element, ← eat ",")
  expect "]"
  finish .arrayExpression start [(.elements, .list elements)]

/-- A property of an object, closed where the last token ends. -/
def finishProperty (start : Nat) (key value : Node) (kind : String)
    (isMethod shorthand computed : Bool) : TreeReader Node :=
  finish .property start
    [(.key, .node key), (.value, .node value), (.kind, .text kind), (.method, .bool isMethod),
     (.shorthand, .bool shorthand), (.computed, .bool computed)]

/-- A property whose key stands for itself; a default is allowed, as the object may yet become a
pattern. -/
def shorthandProperty (start : Nat) (key : Node) (computed : Bool) : TreeReader Node := do
  if key.kind != .identifier || computed then fail .expectedColon
  let value ← shorthandValue recur key
  finishProperty start key value "init" false true false

/-- A member of an object. -/
def objectMember : TreeReader Node := do
  let start ← start
  if ← isAt "..." then spreadable recur
  else
    let (isAsync, isGenerator, accessor?) ← keyModifiers
    let (key, computed) ← propertyKey recur
    if ← isAt "(" then
      let value ← methodValue recur isAsync isGenerator
      finishProperty start key value (accessor?.getD "init") accessor?.isNone false computed
    else if ← eat ":" then
      let value ← recur .assignment
      finishProperty start key value "init" false false computed
    else shorthandProperty recur start key computed

/-- The members of an object in braces. -/
def object : TreeReader Node := do
  let start ← start
  expect "\x7b"
  let properties ← allowingIn <| many do
    if ← isAt "\x7d" then return none
    let property ← objectMember recur
    return some (property, ← eat ",")
  expect "\x7d"
  finish .objectExpression start [(.properties, nodes properties)]

/-- A property of a word of the language: `new.target`, `import.meta`. -/
def metaProperty (word : Token) : TreeReader Node := do
  let property ← expectName
  let word' ← identifier word
  let property' ← identifier property
  finish .metaProperty word.span.start [(.metaName, .node word'), (.property, .node property')]

/-- The word `import` in an expression: a property of it, or the import of a module. -/
def importForm : TreeReader Node := do
  let word ← advance
  if ← eat "." then metaProperty word
  else
    match ← arguments recur with
    | [] => fail .noImportSource
    | source :: _ => finish .importExpression word.span.start [(.source, .node source)]

/-- An expression that starts with a word. -/
def wordPrimary (token : Token) : TreeReader Node := do
  let constant (value : Value) : TreeReader Node := do
    skip
    make .literal token.span [(.value, value), (.raw, .text token.text)]
  match token.text with
  | "function" => function recur false false
  | "class" => classDefinition recur false false
  | "this" => skip; make .thisExpression token.span []
  | "super" => skip; make .superKeyword token.span []
  | "null" => constant .null
  | "true" => constant (.bool true)
  | "false" => constant (.bool false)
  | "import" => importForm recur
  | word =>
    if word == "async" && (← functionFollows) then function recur false false
    else if statementWords.contains word then fail (.unexpectedKeyword word)
    else
      skip
      identifier token

/-- A regular expression, split at its last slash. -/
def regexLiteral (token : Token) : TreeReader Node :=
  let parts := token.text.toList.reverse.span (· != '/')
  let pattern := String.ofList ((parts.2.drop 1).reverse.drop 1)
  let flags := String.ofList parts.1.reverse
  make .literal token.span
    [(.value, .null), (.raw, .text token.text), (.regex, .regex pattern flags)]

/-- An expression that no operator is applied to. -/
def primary : TreeReader Node := do
  let token ← current
  match token.kind with
  | .name => wordPrimary recur token
  | .number => skip; numberLiteral token
  | .string => skip; stringLiteral token
  | .regex => skip; regexLiteral token
  | .privateName => skip; privateIdentifier token
  | .endOfInput => fail .endReached
  | .template =>
    if startsTemplate token then template recur else fail (.unexpected token.text)
  | .punctuator =>
    match token.text with
    | "(" => parenthesized recur
    | "[" => array recur
    | "\x7b" => object recur
    | text => fail (.unexpected text)

/-- A member access, closed where the last token ends. -/
def finishMember (start : Nat) (object property : Node) (computed optional : Bool) :
    TreeReader Node :=
  finish .memberExpression start
    [(.object, .node object), (.property, .node property), (.computed, .bool computed),
     (.optional, .bool optional)]

/-- A call, closed where the last token ends. -/
def finishCall (start : Nat) (callee : Node) (arguments : List Node) (optional : Bool) :
    TreeReader Node :=
  finish .callExpression start
    [(.callee, .node callee), (.arguments, nodes arguments), (.optional, .bool optional)]

/-- What follows `?.`: a call or a member. -/
def optionalStep (start : Nat) (base : Node) : TreeReader Node := do
  if ← isAt "(" then finishCall start base (← arguments recur) true
  else if ← isAt "[" then finishMember start base (← computedProperty recur) true true
  else finishMember start base (← namedProperty) false true

/-- The member access, call or template after `base`. The flag tells whether an optional step was
among those so far. -/
def tailStep (callable : Bool) (start : Nat) : Node × Bool → TreeReader (Option (Node × Bool))
  | (base, chained) => do
    if ← eat "." then
      let property ← namedProperty
      return some (← finishMember start base property false false, chained)
    else if callable && (← isAt "?.") then
      skip
      return some (← optionalStep recur start base, true)
    else if ← isAt "[" then
      let property ← computedProperty recur
      return some (← finishMember start base property true false, chained)
    else if callable && (← isAt "(") then
      let arguments ← arguments recur
      return some (← finishCall start base arguments false, chained)
    else if startsTemplate (← current) && !chained then
      let quasi ← template recur
      let tagged ← finish .taggedTemplateExpression start [(.tag, .node base),
        (.quasi, .node quasi)]
      return some (tagged, chained)
    else return none

/-- `base` with what follows it. Steps with an optional one among them form a chain. -/
def tail (callable : Bool) (start : Nat) (base : Node) : TreeReader Node := do
  let (expression, chained) ← stepping (tailStep recur callable start) (base, false)
  if chained then
    make .chainExpression (expression.span.getD ⟨0, 0⟩) [(.expression, .node expression)]
  else return expression

/-- An expression with `new`. -/
def construction : TreeReader Node := do
  let start ← start
  let word ← advance
  if ← eat "." then metaProperty word
  else
    let calleeStart ← TreeReader.start
    let callee ← if ← isAt "new" then recur .construction else primary recur
    let callee ← tail recur false calleeStart callee
    let arguments ← if ← isAt "(" then arguments recur else pure []
    finish .newExpression start [(.callee, .node callee), (.arguments, nodes arguments)]

/-- An expression that may be called or assigned to. -/
def leftHandSide : TreeReader Node := do
  let start ← start
  let base ← if ← isAt "new" then construction recur else primary recur
  tail recur true start base

/-- An expression with the operators before it and an update after it. -/
def unary : TreeReader Node := do
  let token ← current
  let start := token.span.start
  let scope := (← get).scope
  let isWord := token.kind == .name
  if (isWord || token.kind == .punctuator) && unaryOperators.contains token.text then
    skip
    let argument ← recur .unary
    finish .unaryExpression start
      [(.operator, .text token.text), (.leading, .bool true), (.argument, .node argument)]
  else if isUpdate token then
    skip
    let argument ← recur .unary
    finish .updateExpression start
      [(.operator, .text token.text), (.leading, .bool true), (.argument, .node argument)]
  else if isWord && token.text == "await" && (scope.inAsync || !scope.inFunction) then
    skip
    let argument ← recur .unary
    finish .awaitExpression start [(.argument, .node argument)]
  else
    let expression ← leftHandSide recur
    let next ← current
    if isUpdate next && !next.afterBreak then
      skip
      finish .updateExpression start
        [(.operator, .text next.text), (.leading, .bool false), (.argument, .node expression)]
    else return expression

/-- The binary operator that is next, and its rank. -/
def binaryOperator? : TreeReader (Option (String × Nat)) := do
  let token ← current
  let scope := (← get).scope
  let isOperator := match token.kind with
    | .punctuator => true
    | .name => token.text == "instanceof" || (token.text == "in" && !scope.noIn)
    | _ => false
  return if isOperator then (binaryRank? token.text).map fun rank => (token.text, rank) else none

/-- The next operator above the rank `floor` and its right operand after `left`. -/
def binaryStep (floor start : Nat) (left : Node) : TreeReader (Option Node) := do
  match ← binaryOperator? with
  | none => return none
  | some (operator, rank) =>
    if rank ≤ floor then return none
    skip
    let right ← recur (.binary (if operator == "**" then rank - 1 else rank))
    return some (← finish (if isLogical operator then .logicalExpression else .binaryExpression)
      start [(.operator, .text operator), (.left, .node left), (.right, .node right)])

/-- An expression of binary operators above the rank `floor`. Operators of one rank group to the
left, `**` to the right. -/
def binary (floor : Nat) : TreeReader Node := do
  let start ← start
  stepping (binaryStep recur floor start) (← unary recur)

/-- An expression with `?` and `:` perhaps. -/
def conditional : TreeReader Node := do
  let start ← start
  let test ← binary recur 0
  if ← eat "?" then
    let consequent ← allowingIn (recur .assignment)
    expect ":"
    let alternate ← recur .assignment
    finish .conditionalExpression start
      [(.test, .node test), (.consequent, .node consequent), (.alternate, .node alternate)]
  else return test

/-- An expression with `yield`. -/
def yieldForm : TreeReader Node := do
  let start ← start
  skip
  let (delegate, argument?) ← (do
    if (← current).afterBreak then return (false, none)
    let delegate ← eat "*"
    let token ← current
    let ends := token.kind == .endOfInput ||
      (token.kind == .punctuator && [")", "]", "\x7d", ",", ";", ":"].contains token.text)
    if delegate || !ends then return (delegate, some (← recur .assignment))
    else return (delegate, none))
  finish .yieldExpression start [(.argument, .ofNode? argument?), (.delegate, .bool delegate)]

/-- An arrow function. In a body that is an expression `in` means what it means around it. -/
def arrow (isAsync : Bool) : TreeReader Node := do
  let start ← start
  if isAsync then skip
  let outer := (← get).scope
  let scope := Scope.function isAsync false
  let (parameters, body, isExpression) ← within (fun _ => { scope with noIn := outer.noIn }) do
    let parameters ← (do
      if ← isAt "(" then allowingIn (parameters recur)
      else return [← identifier (← expectName)])
    expect "=>"
    if ← isAt "\x7b" then return (parameters, ← allowingIn (block recur), false)
    else return (parameters, ← recur .assignment, true)
  finish .arrowFunctionExpression start
    (functionFields none parameters body isAsync false ++ [(.expressionBody, .bool isExpression)])

/-- Does an arrow function start here? The answer tells whether it is asynchronous. -/
def arrowAhead? : TreeReader (Option Bool) := do
  let token ← current
  let next ← peek 1
  let pending := (← get).pending
  if token.kind == .name then
    if next.text == "=>" && !next.afterBreak then return some false
    else if token.text == "async" && !next.afterBreak then
      if next.kind == .name && (← peek 2).text == "=>" then return some true
      else if next.text == "(" && arrowFollows 0 (pending.drop 1) then return some true
      else return none
    else return none
  else if token.is "(" && arrowFollows 0 pending then return some false
  else return none

/-- An expression without a comma: an arrow function, an assignment or a conditional. -/
def assignment : TreeReader Node := do
  let token ← current
  if token.kind == .name && token.text == "yield" && (← get).scope.inGenerator then yieldForm recur
  else
    match ← arrowAhead? with
    | some isAsync => arrow recur isAsync
    | none =>
      let start := token.span.start
      let left ← conditional recur
      let operator ← current
      if operator.kind == .punctuator && assignmentOperators.contains operator.text then
        skip
        let left ← if operator.text == "=" then assignmentTarget left else pure left
        let right ← recur .assignment
        finish .assignmentExpression start
          [(.operator, .text operator.text), (.left, .node left), (.right, .node right)]
      else return left

/-- Expressions parted by commas. -/
def expression : TreeReader Node := do
  let start ← start
  let first ← assignment recur
  let later ← many do
    if ← eat "," then return some (← recur .assignment, true) else return none
  if later.isEmpty then return first
  else finish .sequenceExpression start [(.expressions, nodes (first :: later))]

end DocTypes.TreeReader
