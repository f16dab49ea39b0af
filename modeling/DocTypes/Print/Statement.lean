import DocTypes.Print.Expression

/-!
# Printing statements
-/

namespace DocTypes.Printer

variable (recur : Value → Printer Text)

/-- Prints statements or members in braces, each on a line of its own. -/
def braced (node : Node) : Printer Text := do
  match ← listFieldOrNothing node .body with
  | [] => return "\x7b\n" ++ (← indentation) ++ "\x7d"
  | items =>
    let lines ← indented <| items.mapM fun item => return (← indentation) ++ (← recur item)
    return "\x7b\n" ++ Text.intercalate "\n" lines ++ "\n" ++ (← indentation) ++ "\x7d"

/-- Prints the body of a loop or a branch: a block on the same line, any other statement on the
next. -/
def nested (body : Value) : Printer Text := do
  if (← kindOf body) == .blockStatement then return " " ++ (← recur body)
  else indented do return "\n" ++ (← indentation) ++ (← recur body)

/-- What stands between the body of a branch or loop and the word after it. -/
def afterNested (body : Value) : Printer Text := do
  if (← kindOf body) == .blockStatement then return " " else return "\n" ++ (← indentation)

/-- Prints the statements of a program, each on a line of its own. -/
def programForm (direct : Value → Printer Text) (node : Node) : Printer Text := do
  let items ← (← listField node .body).mapM fun item => asText .noAttribute (direct item)
  let endLine (text : Text) : Text :=
    if text != "" && !endsLine text then text ++ "\n" else text
  return endLine (items.foldl (fun text item => appendItem (endLine text) item) "")

/-- Prints an expression as a statement. One that would start like another statement is put in
parentheses. -/
def expressionStatement (direct : Value → Printer Text) (node : Node) : Printer Text := do
  let text ← asText .noAttribute (operand direct .sequence (← field node .expression))
  let misleads := ["\x7b", "function", "class", "let ["].any fun start => startsWith start text
  return (if misleads then inParentheses text else text) ++ ";"

/-- Prints a statement with `if`. -/
def ifStatement (node : Node) : Printer Text := do
  let test ← operand recur .sequence (← field node .test)
  let consequent ← field node .consequent
  let head := "if (" ++ test ++ ")" ++ (← nested recur consequent)
  match ← field node .alternate with
  | .null => return head
  | alternate =>
    let head := head ++ (← afterNested consequent) ++ "else"
    if (← kindOf alternate) == .ifStatement then return head ++ " " ++ (← recur alternate)
    else return head ++ (← nested recur alternate)

/-- Prints a declaration of variables without its semicolon. -/
def declaration (node : Node) : Printer Text := do
  let parts ← (← listField node .declarations).mapM recur
  return (← textField node .kind) ++ " " ++ Text.intercalate ", " parts

/-- Prints what a loop's head starts with. -/
def forInit (value : Value) : Printer Text := do
  match value with
  | .node node =>
    if node.kind == .variableDeclaration then declaration recur node
    else operand recur .sequence value
  | _ =>
    let _ ← kindOf value
    operand recur .sequence value

/-- Prints an expression that may be missing. -/
def optionalExpression (value : Value) : Printer Text :=
  if value.isNull then return "" else operand recur .sequence value

/-- Prints a `for` loop with semicolons in its head. -/
def forStatement (node : Node) : Printer Text := do
  let init : Text ← (do
    match ← field node .init with
    | .null => return ""
    | init => guardingIn (forInit recur init))
  let test ← optionalExpression recur (← field node .test)
  let update ← optionalExpression recur (← field node .update)
  let body ← nested recur (← field node .body)
  return "for (" ++ init ++ "; " ++ test ++ "; " ++ update ++ ")" ++ body

/-- Prints a `for` loop over the items or the keys of an object. -/
def forEach (node : Node) (opening word : String) (least : Binding) : Printer Text := do
  let left ← forInit recur (← field node .left)
  let right ← operand recur least (← field node .right)
  let body ← nested recur (← field node .body)
  return opening ++ left ++ word ++ right ++ ")" ++ body

/-- Prints a condition or an object in the head of a statement, and its body. -/
def headed (node : Node) (word : String) (head : Field) : Printer Text := do
  let inner ← operand recur .sequence (← field node head)
  return word ++ " (" ++ inner ++ ")" ++ (← nested recur (← field node .body))

/-- Prints a statement with `do`. -/
def doStatement (node : Node) : Printer Text := do
  let body ← field node .body
  let head := "do" ++ (← nested recur body) ++ (← afterNested body)
  let test ← operand recur .sequence (← field node .test)
  return head ++ "while (" ++ test ++ ");"

/-- Prints a word with a part after it perhaps, and a semicolon. -/
def wordStatement (word : String) (value : Value) (print : Value → Printer Text) :
    Printer Text := do
  if value.isNull then return word ++ ";" else return word ++ " " ++ (← print value) ++ ";"

/-- Prints a statement with `switch`. -/
def switchStatement (node : Node) : Printer Text := do
  let discriminant ← operand recur .sequence (← field node .discriminant)
  let cases ← listField node .cases
  let lines ← indented <| cases.mapM fun case => return (← indentation) ++ (← recur case) ++ "\n"
  return "switch (" ++ discriminant ++ ") \x7b\n" ++ Text.join lines ++ (← indentation) ++ "\x7d"

/-- Prints one case of a `switch` statement. -/
def switchCase (node : Node) : Printer Text := do
  let head : Text ← (do
    match ← field node .test with
    | .null => return "default:"
    | test => return "case " ++ (← operand recur .sequence test) ++ ":")
  let statements ← listField node .consequent
  let lines ← indented <| statements.mapM fun statement =>
    return "\n" ++ (← indentation) ++ (← recur statement)
  return head ++ Text.join lines

/-- Prints a statement with `try`. -/
def tryStatement (node : Node) : Printer Text := do
  let block ← recur (← field node .block)
  let handler : Text ← (do
    match ← field node .handler with
    | .null => return ""
    | handler => return " " ++ (← recur handler))
  let finalizer : Text ← (do
    match ← field node .finalizer with
    | .null => return ""
    | finalizer => return " finally " ++ (← recur finalizer))
  return "try " ++ block ++ handler ++ finalizer

/-- Prints what a `try` statement does with a fault. -/
def catchClause (node : Node) : Printer Text := do
  match ← field node .param with
  | .null => return "catch " ++ (← recur (← field node .body))
  | parameter =>
    let parameter ← recur parameter
    return "catch (" ++ parameter ++ ") " ++ (← recur (← field node .body))

/-- Prints a name or pattern with its value perhaps. -/
def declarator (node : Node) : Printer Text := do
  let target ← recur (← field node .id)
  match ← field node .init with
  | .null => return target
  | init => return target ++ " = " ++ (← operand recur .assignment init)

/-- The word before a static member. -/
def staticWord (node : Node) : Printer Text :=
  return if (← field node .isStatic).isTrue then "static " else ""

/-- Prints a method of a class. -/
def method (node : Node) : Printer Text := do
  let static ← staticWord node
  let value ← field node .value
  let kind ← field node .kind
  let accessor := if kind.isText "get" then "get " else if kind.isText "set" then "set " else ""
  let async := if flagOf value .isAsync then "async " else ""
  let generator := if flagOf value .generator then "*" else ""
  let key ← key recur (← field node .key) (← field node .computed)
  return static ++ accessor ++ async ++ generator ++ key ++ (← methodRest recur value)

/-- Prints a field of a class. -/
def classField (node : Node) : Printer Text := do
  let static ← staticWord node
  let key ← key recur (← field node .key) (← field node .computed)
  match ← field node .value with
  | .null => return static ++ key ++ ";"
  | value => return static ++ key ++ " = " ++ (← operand recur .assignment value) ++ ";"

/-- Prints names in braces. -/
def nameList (values : List Value) : Printer Text := do
  return "\x7b " ++ Text.intercalate ", " (← values.mapM recur) ++ " \x7d"

/-- Prints an import declaration: first the default and the whole, then the names in braces. -/
def importDeclaration (node : Node) : Printer Text := do
  match ← listFieldOrNothing node .specifiers with
  | [] => return "import " ++ (← recur (← field node .source)) ++ ";"
  | specifiers =>
    let isNamed (kind? : Option Kind) : Bool := kind? == some .importSpecifier
    let whole ← specifiers.filterMapM fun specifier => do
      if isNamed (some (← kindOf specifier)) then return none else some <$> recur specifier
    let named := specifiers.filter fun specifier => isNamed specifier.kind?
    let names ← if named.isEmpty then pure [] else (fun names => [names]) <$> nameList recur named
    let parts := whole ++ names
    return "import " ++ Text.intercalate ", " parts ++ " from " ++
      (← recur (← field node .source)) ++ ";"

/-- Prints a name and the name it is given, once if they agree. -/
def renamed (node : Node) (first second : Field) : Printer Text := do
  let old ← recur (← field node first)
  let new ← recur (← field node second)
  return if old == new then new else old ++ " as " ++ new

/-- Prints an export of names or of a declaration. -/
def exportNamed (node : Node) : Printer Text := do
  match ← field node .declaration with
  | .null =>
    let names ← nameList recur (← listField node .specifiers)
    match ← field node .source with
    | .null => return "export " ++ names ++ ";"
    | source => return "export " ++ names ++ " from " ++ (← recur source) ++ ";"
  | declaration => return "export " ++ (← recur declaration)

/-- The kinds of statements, which are exported without a semicolon. -/
def statementKinds : List Kind :=
  [.expressionStatement, .blockStatement, .emptyStatement, .debuggerStatement, .returnStatement,
   .throwStatement, .ifStatement, .forStatement, .forInStatement, .forOfStatement, .whileStatement,
   .doWhileStatement, .breakStatement, .continueStatement, .labeledStatement, .switchStatement,
   .tryStatement, .withStatement, .variableDeclaration, .functionDeclaration, .classDeclaration,
   .importDeclaration, .exportNamedDeclaration, .exportDefaultDeclaration, .exportAllDeclaration]

/-- Prints a default export. -/
def exportDefault (node : Node) : Printer Text := do
  let declaration ← field node .declaration
  if statementKinds.contains (← kindOf declaration) then
    return "export default " ++ (← recur declaration)
  else return "export default " ++ (← operand recur .assignment declaration) ++ ";"

/-- Prints an export of all that another module exports. -/
def exportAll (node : Node) : Printer Text := do
  let exported : Text ← (do
    match ← field node .exported with
    | .null => return ""
    | exported => return " as " ++ (← recur exported))
  return "export *" ++ exported ++ " from " ++ (← recur (← field node .source)) ++ ";"

/-- Prints a node that is a statement or a part of one. -/
def statementForm? (direct : Value → Printer Text) (node : Node) : Option (Printer Text) :=
  match node.kind with
  | .program => some (programForm direct node)
  | .emptyStatement => some (return ";")
  | .debuggerStatement => some (return "debugger;")
  | .expressionStatement => some (expressionStatement direct node)
  | .blockStatement | .classBody => some (braced recur node)
  | .staticBlock => some do return "static " ++ (← braced recur node)
  | .returnStatement => some do
    wordStatement "return" (← field node .argument) (operand recur .sequence)
  | .throwStatement => some do
    return "throw " ++ (← operand recur .sequence (← field node .argument)) ++ ";"
  | .ifStatement => some (ifStatement recur node)
  | .forStatement => some (forStatement recur node)
  | .forInStatement => some (forEach recur node "for (" " in " .sequence)
  | .forOfStatement =>
    some (forEach recur node (if flag node .isAwait then "for await (" else "for (") " of "
      .assignment)
  | .whileStatement => some (headed recur node "while" .test)
  | .withStatement => some (headed recur node "with" .object)
  | .doWhileStatement => some (doStatement recur node)
  | .breakStatement => some do wordStatement "break" (← field node .label) recur
  | .continueStatement => some do wordStatement "continue" (← field node .label) recur
  | .labeledStatement => some do
    let label ← recur (← field node .label)
    return label ++ ":" ++ (← nested recur (← field node .body))
  | .switchStatement => some (switchStatement recur node)
  | .switchCase => some (switchCase recur node)
  | .tryStatement => some (tryStatement recur node)
  | .catchClause => some (catchClause recur node)
  | .variableDeclaration => some do return (← declaration recur node) ++ ";"
  | .variableDeclarator => some (declarator recur node)
  | .functionDeclaration => some (functionForm recur node)
  | .classDeclaration => some (classForm recur node)
  | .methodDefinition => some (method recur node)
  | .propertyDefinition => some (classField recur node)
  | .importDeclaration => some (importDeclaration recur node)
  | .importSpecifier => some (renamed recur node .imported .localName)
  | .importDefaultSpecifier => some do direct (← field node .localName)
  | .importNamespaceSpecifier => some do return "* as " ++ (← recur (← field node .localName))
  | .exportNamedDeclaration => some (exportNamed recur node)
  | .exportSpecifier => some (renamed recur node .localName .exported)
  | .exportDefaultDeclaration => some (exportDefault recur node)
  | .exportAllDeclaration => some (exportAll recur node)
  | _ => none

/-- Prints a node from its structure. -/
def structureForm (direct : Value → Printer Text) (node : Node) : Printer Text :=
  let recur := fun value => asText .misfit (direct value)
  match expressionForm? recur direct node, statementForm? recur direct node with
  | some printer, _ => printer
  | none, some printer => printer
  | none, none => if node.kind == .unnamed then refuse .misfit else throw (.noForm node.kind.text)

end DocTypes.Printer
