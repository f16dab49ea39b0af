import DocTypes.Tree.Reader.Expression

/-!
# Statements and modules
-/

namespace DocTypes.TreeReader

/-- Does the token after `let` make it a declaration? -/
def letDeclares : TreeReader Bool := do
  let next ← peek 1
  return next.kind == .name || next.text == "[" || next.text == "\x7b"

/-- A string that names a module. -/
def moduleSource : TreeReader Node := do
  let token ← current
  if token.kind != .string then fail .expectedModule
  skip
  stringLiteral token

/-- A name that a module exports: a word or a string. -/
def moduleName : TreeReader Node := do
  if ← isAtKind .string then moduleSource else identifier (← expectName)

/-- Passes over the attributes after a module's name. -/
def skipAttributes : TreeReader Unit := do
  if ((← isAt "with") || (← isAt "assert")) && (← peek 1).text == "\x7b" then
    skip
    skip
    let _ ← many do
      if ← eat "\x7d" then return none
      if ← isAtKind .endOfInput then fail .openAttributes
      skip
      return some ((), true)

/-- Names in braces, from the one after the opening brace on. Each is `second` to its first name
if `as` follows, and else the first name again, which is then one node in two places. -/
def specifiers (kind : Kind) (first second : Field) (renamed : TreeReader Node) :
    TreeReader (List Node) :=
  many do
    if ← eat "\x7d" then return none
    let start ← start
    let name ← moduleName
    let newName ← if ← eat "as" then renamed else pure name
    let specifier ← finish kind start [(first, .node name), (second, .node newName)]
    if ← eat "," then return some (specifier, true)
    expect "\x7d"
    return some (specifier, false)

/-- The default name of an import. -/
def defaultSpecifier? : TreeReader (List Node) := do
  let token ← current
  if token.kind == .name && (token.text != "from" || (← peek 1).text == "from") then
    skip
    let name ← identifier token
    let specifier ← make .importDefaultSpecifier token.span [(.localName, .node name)]
    let _ ← eat ","
    return [specifier]
  else return []

/-- The names of an import that are not the default: all as one, or those in braces. -/
def namedSpecifiers : TreeReader (List Node) := do
  let start ← start
  if ← eat "*" then
    expect "as"
    let name ← identifier (← expectName)
    return [← finish .importNamespaceSpecifier start [(.localName, .node name)]]
  else if ← eat "\x7b" then
    specifiers .importSpecifier .imported .localName (do identifier (← expectName))
  else return []

/-- An import declaration. -/
def importDeclaration : TreeReader Node := do
  let start ← start
  skip
  let specifiers ← (do
    if ← isAtKind .string then return []
    let default ← defaultSpecifier?
    let named ← namedSpecifiers
    expect "from"
    return default ++ named)
  let source ← moduleSource
  skipAttributes
  semicolon
  finish .importDeclaration start [(.specifiers, nodes specifiers), (.source, .node source)]

variable (recur : Goal → TreeReader Node)

/-- What follows `export default`. -/
def exportDefault (start : Nat) : TreeReader Node := do
  let declaration ← (do
    if (← isAt "function") || ((← isAt "async") && (← functionFollows)) then
      function recur true true
    else if ← isAt "class" then classDefinition recur true true
    else
      let expression ← recur .assignment
      semicolon
      return expression)
  finish .exportDefaultDeclaration start [(.declaration, .node declaration)]

/-- What follows `export *`. -/
def exportAll (start : Nat) : TreeReader Node := do
  let exported? ← (do if ← eat "as" then return some (← moduleName) else return none)
  expect "from"
  let source ← moduleSource
  skipAttributes
  semicolon
  finish .exportAllDeclaration start [(.exported, .ofNode? exported?), (.source, .node source)]

/-- What follows `export` and an opening brace. -/
def exportNames (start : Nat) : TreeReader Node := do
  let specifiers ← specifiers .exportSpecifier .localName .exported moduleName
  let source? ← (do
    if ← eat "from" then
      let source ← moduleSource
      skipAttributes
      return some source
    else return none)
  semicolon
  finish .exportNamedDeclaration start
    [(.declaration, .null), (.specifiers, nodes specifiers), (.source, .ofNode? source?)]

/-- A declaration after `export`. -/
def exportDeclared (start : Nat) : TreeReader Node := do
  let declaration ← recur .statement
  if !([Kind.variableDeclaration, .functionDeclaration, .classDeclaration].contains
    declaration.kind)
  then fail .unexpectedExport
  finish .exportNamedDeclaration start
    [(.declaration, .node declaration), (.specifiers, .list []), (.source, .null)]

/-- An export declaration. -/
def exportDeclaration : TreeReader Node := do
  let start ← start
  skip
  if ← eat "default" then exportDefault recur start
  else if ← eat "*" then exportAll start
  else if ← eat "\x7b" then exportNames start
  else exportDeclared recur start

/-- One name or pattern of a declaration, with its value perhaps. -/
def declarator : TreeReader Node := do
  let start ← start
  let target ← bindingTarget recur
  let init? ← (do if ← eat "=" then return some (← recur .assignment) else return none)
  finish .variableDeclarator start [(.id, .node target), (.init, .ofNode? init?)]

/-- A declaration of variables without its semicolon. -/
def variableDeclaration : TreeReader Node := do
  let start ← start
  let kind := (← advance).text
  let declarations ← many do
    let declaration ← declarator recur
    return some (declaration, ← eat ",")
  finish .variableDeclaration start [(.kind, .text kind), (.declarations, nodes declarations)]

/-- A declaration of variables with its semicolon. -/
def variableStatement : TreeReader Node := do
  let start ← start
  let declaration ← variableDeclaration recur
  semicolon
  return declaration.withSpan (some ⟨start, (← get).lastEnd⟩)

/-- An expression as a statement. -/
def expressionStatement : TreeReader Node := do
  let start ← start
  let expression ← expression recur
  semicolon
  finish .expressionStatement start [(.expression, .node expression)]

/-- A statement with `if`. -/
def ifStatement : TreeReader Node := do
  let start ← start
  skip
  let test ← parenthesized recur
  let consequent ← recur .statement
  let alternate? ← (do if ← eat "else" then return some (← recur .statement) else return none)
  finish .ifStatement start
    [(.test, .node test), (.consequent, .node consequent), (.alternate, .ofNode? alternate?)]

/-- What a `for` loop starts with. Here `in` is not an operator. -/
def forInit : TreeReader Node :=
  within (fun scope => { scope with noIn := true }) do
    if (← isAt "var") || (← isAt "const") || ((← isAt "let") && (← letDeclares)) then
      variableDeclaration recur
    else recur .expression

/-- A `for` loop over the items or the keys of an object, from the word `of` or `in` on. -/
def forEach (start : Nat) (isAwait : Bool) (init : Node) : TreeReader Node := do
  let isOf := (← advance).text == "of"
  let left ← if init.kind == .variableDeclaration then pure init else assignmentTarget init
  let right ← recur (if isOf then .assignment else .expression)
  expect ")"
  let body ← recur .statement
  let fields := [(.left, .node left), (.right, .node right), (.body, .node body)]
  if isOf then finish .forOfStatement start (fields ++ [(.isAwait, .bool isAwait)])
  else finish .forInStatement start fields

/-- A `for` loop with semicolons in its head, from the first one on. -/
def forSteps (start : Nat) (init? : Option Node) : TreeReader Node := do
  let expressionBefore (text : String) : TreeReader (Option Node) := do
    if ← isAt text then return none else return some (← recur .expression)
  expect ";"
  let test? ← expressionBefore ";"
  expect ";"
  let update? ← expressionBefore ")"
  expect ")"
  let body ← recur .statement
  finish .forStatement start
    [(.init, .ofNode? init?), (.test, .ofNode? test?), (.update, .ofNode? update?),
     (.body, .node body)]

/-- A statement with `for`. -/
def forStatement : TreeReader Node := do
  let start ← start
  skip
  let isAwait ← eat "await"
  expect "("
  if ← isAt ";" then forSteps recur start none
  else
    let init ← forInit recur
    if (← isAt "of") || (← isAt "in") then forEach recur start isAwait init
    else forSteps recur start (some init)

/-- A statement with `while`. -/
def whileStatement : TreeReader Node := do
  let start ← start
  skip
  let test ← parenthesized recur
  let body ← recur .statement
  finish .whileStatement start [(.test, .node test), (.body, .node body)]

/-- A statement with `do`. -/
def doStatement : TreeReader Node := do
  let start ← start
  skip
  let body ← recur .statement
  expect "while"
  let test ← parenthesized recur
  let _ ← eat ";"
  finish .doWhileStatement start [(.body, .node body), (.test, .node test)]

/-- A statement with `return`. -/
def returnStatement : TreeReader Node := do
  let start ← start
  skip
  let argument? ← (do
    if ← statementEnds then return none else return some (← recur .expression))
  semicolon
  finish .returnStatement start [(.argument, .ofNode? argument?)]

/-- A statement with `break` or `continue`. -/
def jumpStatement (kind : Kind) : TreeReader Node := do
  let start ← start
  skip
  let next ← current
  let label? ← (do
    if next.kind == .name && !next.afterBreak then return some (← identifier (← advance))
    else return none)
  semicolon
  finish kind start [(.label, .ofNode? label?)]

/-- A statement with `throw`. -/
def throwStatement : TreeReader Node := do
  let start ← start
  skip
  if (← current).afterBreak then fail .breakAfterThrow
  let argument ← recur .expression
  semicolon
  finish .throwStatement start [(.argument, .node argument)]

/-- The part of a `try` statement that starts with `catch`. -/
def catchClause? : TreeReader (Option Node) := do
  let start ← start
  if ← eat "catch" then
    let parameter? ← (do
      if ← eat "(" then
        let parameter ← bindingTarget recur
        expect ")"
        return some parameter
      else return none)
    let body ← block recur
    return some (← finish .catchClause start [(.param, .ofNode? parameter?), (.body, .node body)])
  else return none

/-- A statement with `try`. -/
def tryStatement : TreeReader Node := do
  let start ← start
  skip
  let body ← block recur
  let handler? ← catchClause? recur
  let finalizer? ← (do if ← eat "finally" then return some (← block recur) else return none)
  if handler?.isNone && finalizer?.isNone then fail .noHandler
  finish .tryStatement start
    [(.block, .node body), (.handler, .ofNode? handler?), (.finalizer, .ofNode? finalizer?)]

/-- One case of a `switch` statement. -/
def switchCase : TreeReader Node := do
  let start ← start
  let test? ← (do
    if ← eat "case" then return some (← recur .expression)
    else
      expect "default"
      return none)
  expect ":"
  let consequent ← many do
    if (← isAt "case") || (← isAt "default") || (← isAt "\x7d") then return none
    if ← isAtKind .endOfInput then fail .openSwitch
    return some (← recur .statement, true)
  finish .switchCase start [(.test, .ofNode? test?), (.consequent, nodes consequent)]

/-- A statement with `switch`. -/
def switchStatement : TreeReader Node := do
  let start ← start
  skip
  let discriminant ← parenthesized recur
  expect "\x7b"
  let cases ← many do
    if ← eat "\x7d" then return none
    return some (← switchCase recur, true)
  finish .switchStatement start [(.discriminant, .node discriminant), (.cases, nodes cases)]

/-- A statement with `with`. -/
def withStatement : TreeReader Node := do
  let start ← start
  skip
  let object ← parenthesized recur
  let body ← recur .statement
  finish .withStatement start [(.object, .node object), (.body, .node body)]

/-- A statement with a label. -/
def labeledStatement : TreeReader Node := do
  let start ← start
  let label ← identifier (← advance)
  expect ":"
  let body ← recur .statement
  finish .labeledStatement start [(.label, .node label), (.body, .node body)]

/-- The statement `debugger`. -/
def debuggerStatement : TreeReader Node := do
  let start ← start
  skip
  semicolon
  finish .debuggerStatement start []

/-- A statement that starts with a word without a meaning of its own here. -/
def plainStatement (word : String) : TreeReader Node := do
  if !statementWords.contains word && (← peek 1).text == ":" then labeledStatement recur
  else expressionStatement recur

/-- A statement that starts with a word. -/
def wordStatement (word : String) : TreeReader Node := do
  match word with
  | "var" | "const" => variableStatement recur
  | "let" => if ← letDeclares then variableStatement recur else plainStatement recur word
  | "function" => function recur true false
  | "async" => if ← functionFollows then function recur true false else plainStatement recur word
  | "class" => classDefinition recur true false
  | "if" => ifStatement recur
  | "for" => forStatement recur
  | "while" => whileStatement recur
  | "do" => doStatement recur
  | "return" => returnStatement recur
  | "break" => jumpStatement .breakStatement
  | "continue" => jumpStatement .continueStatement
  | "throw" => throwStatement recur
  | "try" => tryStatement recur
  | "switch" => switchStatement recur
  | "with" => withStatement recur
  | "debugger" => debuggerStatement
  | "import" =>
    let next := (← peek 1).text
    if next == "(" || next == "." then plainStatement recur word else importDeclaration
  | "export" => exportDeclaration recur
  | _ => plainStatement recur word

/-- A statement. -/
def statement : TreeReader Node := do
  let token ← current
  if token.isPunctuator "\x7b" then block recur
  else if token.isPunctuator ";" then
    skip
    make .emptyStatement token.span []
  else if token.kind == .name then wordStatement recur token.text
  else expressionStatement recur

end DocTypes.TreeReader
