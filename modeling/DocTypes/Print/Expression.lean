import DocTypes.Print.Basic

/-!
# Printing expressions

Expressions are printed from their structure, with parentheses where an operand binds looser than
its place asks. The printers are written over a function `recur` that prints the values one level
further down. Where a value is passed on as it is, or looked into, the printers use `direct`, which
also hands up what is no text: an edited program can hold a name that is a number.
-/

namespace DocTypes

/-- How tightly an expression binds: the tighter, the larger. -/
inductive Binding where
  | sequence
  | assignment
  | conditional
  | coalesce
  | or
  | and
  | bitOr
  | bitXor
  | bitAnd
  | equality
  | relational
  | shift
  | additive
  | multiplicative
  | exponent
  | unary
  | update
  | call
  | construction
  | member
  | primary
deriving DecidableEq, Repr

namespace Binding

/-- The rank of a binding strength. -/
def rank : Binding → Nat
  | .sequence => 0
  | .assignment => 1
  | .conditional => 2
  | .coalesce => 3
  | .or => 4
  | .and => 5
  | .bitOr => 6
  | .bitXor => 7
  | .bitAnd => 8
  | .equality => 9
  | .relational => 10
  | .shift => 11
  | .additive => 12
  | .multiplicative => 13
  | .exponent => 14
  | .unary => 15
  | .update => 16
  | .call => 17
  | .construction => 18
  | .member => 19
  | .primary => 20

/-- How tightly a binary operator binds. -/
def ofOperator? : String → Option Binding
  | "??" => some .coalesce
  | "||" => some .or
  | "&&" => some .and
  | "|" => some .bitOr
  | "^" => some .bitXor
  | "&" => some .bitAnd
  | "==" | "!=" | "===" | "!==" => some .equality
  | "<" | ">" | "<=" | ">=" | "in" | "instanceof" => some .relational
  | "<<" | ">>" | ">>>" => some .shift
  | "+" | "-" => some .additive
  | "*" | "/" | "%" => some .multiplicative
  | "**" => some .exponent
  | _ => none

end Binding

namespace Printer

/-- How tightly the operator of a node binds. -/
def operatorRank (node : Node) : Printer Nat := do
  match ← field node .operator with
  | .text operator =>
    match Binding.ofOperator? operator with
    | some binding => return binding.rank
    | none => refuse .noEntry
  | .list _ | .regex _ _ => refuse .misfit
  | _ => refuse .noEntry

/-- How tightly a value binds, looking through at most `levels` chains. -/
def rankTo : Nat → Value → Printer Nat
  | 0, _ => return Binding.primary.rank
  | levels + 1, value =>
    match value with
    | .node node =>
      match node.kind with
      | .sequenceExpression => return Binding.sequence.rank
      | .assignmentExpression | .assignmentPattern | .arrowFunctionExpression
      | .yieldExpression => return Binding.assignment.rank
      | .conditionalExpression => return Binding.conditional.rank
      | .binaryExpression | .logicalExpression => operatorRank node
      | .unaryExpression | .awaitExpression => return Binding.unary.rank
      | .updateExpression => do
        let leading ← field node .leading
        return if leading.isTrue then Binding.unary.rank else Binding.update.rank
      | .callExpression | .importExpression | .taggedTemplateExpression =>
        return Binding.call.rank
      | .newExpression => return Binding.construction.rank
      | .memberExpression => return Binding.member.rank
      | .chainExpression => do
        let inner ← field node .expression
        let _ ← kindOf inner
        rankTo levels inner
      | _ => return Binding.primary.rank
    | _ => return Binding.primary.rank

/-- How tightly a value binds. -/
def rank (value : Value) : Printer Nat :=
  rankTo (Node.valueHeight value + 1) value

/-- A text in parentheses. -/
def inParentheses (text : Text) : Text :=
  "(" ++ text ++ ")"

/-- Is it the operator `in` with its operands? -/
def isInOperation : Value → Bool
  | .node node =>
    node.kind == .binaryExpression &&
      match node.get .operator with
      | .text operator => operator == "in"
      | _ => false
  | _ => false

/-- Is the text made of digits and underscores, with a digit among them? -/
def isDigits (text : Text) : Bool :=
  let digits := text.chars.filter (· != '_')
  !digits.isEmpty && digits.all isDigitLike

variable (recur : Value → Printer Text)

/-- Prints an operand, in parentheses if it binds looser than `least`. -/
def operandAbove (least : Nat) (value : Value) : Printer Text := do
  let text ← recur value
  if (← rank value) < least then return inParentheses text
  if (← read).noIn && isInOperation value then return inParentheses text
  return text

/-- Prints an operand, in parentheses if it binds looser than `least`. -/
def operand (least : Binding) (value : Value) : Printer Text :=
  operandAbove recur least.rank value

/-- Prints what is called or accessed. A chain ends here, and a number would take the point after
it for its own. -/
def base (direct : Value → Printer Text) (value : Value) : Printer Text := do
  match value.kind? with
  | some .chainExpression => return inParentheses (← operand recur .call value)
  | some .literal =>
    let text ← asText .noAttribute (operand direct .call value)
    return if isDigits text then inParentheses text else text
  | _ => operand recur .call value

/-- Prints values parted by commas. -/
def commaList (values : List Value) : Printer Text := do
  return Text.intercalate ", " (← values.mapM (operand recur .assignment))

/-- Prints parameters or arguments in parentheses. -/
def argumentList (values : Value) : Printer Text := do
  return inParentheses (← commaList recur (← itemsOf values))

/-- Prints a property key, in square brackets if it is computed. -/
def key (value computed : Value) : Printer Text := do
  if computed.isTrue then return "[" ++ (← operand recur .assignment value) ++ "]"
  else recur value

/-- Prints the parameters and the body of a method. -/
def methodRest (value : Value) : Printer Text := do
  let parameters ← argumentList recur (← fieldOf value .params)
  return parameters ++ " " ++ (← recur (← fieldOf value .body))

/-- The text of a literal: as it was written, if that is known. -/
def literal (node : Node) : Printer Text := do
  if (node.get .raw).isTrue then nameField node .raw
  else
    match (← field node .value).literalText with
    | .ok (some text) => return text
    | .ok none => refuse .misfit
    | .error fault => refuse fault

/-- Prints the parts of a template from the one at `place` on, each with the substitution after
it. -/
def templateParts (node : Node) : Nat → List Value → Printer Text
  | _, [] => return ""
  | place, quasi :: quasis => do
    let raw : Text ← (do
      match ← fieldOf quasi .raw with
      | .text raw => return raw
      | _ => refuse .misfit)
    match (← listField node .expressions)[place]? with
    | none => return raw ++ (← templateParts node (place + 1) quasis)
    | some expression =>
      let inner ← operand recur .sequence expression
      return raw ++ "$\x7b" ++ inner ++ "\x7d" ++ (← templateParts node (place + 1) quasis)

/-- Prints elements in square brackets. A hole prints as nothing, and one at the end needs a comma
of its own. -/
def elements (node : Node) : Printer Text := do
  let items ← listField node .elements
  let texts ← items.mapM fun item =>
    if item.isNull then return "" else operand recur .assignment item
  let closing := if (items.getLast?.map Value.isNull).getD false then "," else ""
  return "[" ++ Text.intercalate ", " texts ++ closing ++ "]"

/-- Prints properties in braces, each on a line of its own. -/
def properties (node : Node) : Printer Text := do
  match ← listFieldOrNothing node .properties with
  | [] => return "\x7b\x7d"
  | items =>
    let lines ← indented <| items.mapM fun item => return (← indentation) ++ (← recur item)
    return "\x7b\n" ++ Text.intercalate ",\n" lines ++ "\n" ++ (← indentation) ++ "\x7d"

/-- Prints a property of an object. -/
def property (direct : Value → Printer Text) (node : Node) : Printer Text := do
  let value ← field node .value
  if (← field node .shorthand).isTrue then operand direct .assignment value
  else
    let key ← key recur (← field node .key) (← field node .computed)
    let kind ← field node .kind
    if kind.isText "get" || kind.isText "set" then
      return (← textField node .kind) ++ " " ++ key ++ (← methodRest recur value)
    else if (← field node .method).isTrue then
      return (if flagOf value .isAsync then "async " else "") ++
        (if flagOf value .generator then "*" else "") ++ key ++ (← methodRest recur value)
    else return key ++ ": " ++ (← operand recur .assignment value)

/-- Prints a function with the word `function`. -/
def functionForm (node : Node) : Printer Text := do
  let name : Text ← (do
    match ← field node .id with
    | .null => return ""
    | name => return " " ++ (← recur name))
  let parameters ← argumentList recur (← field node .params)
  let body ← recur (← field node .body)
  return (if flag node .isAsync then "async " else "") ++ "function" ++
    (if flag node .generator then "*" else "") ++ name ++ parameters ++ " " ++ body

/-- Prints an arrow function. A body that starts with a brace and is no block is put in
parentheses. -/
def arrow (direct : Value → Printer Text) (node : Node) : Printer Text := do
  let parameters ← argumentList recur (← field node .params)
  let body ← field node .body
  let text : Text ← (do
    if (← kindOf body) == .blockStatement then recur body
    else
      let text ← asText .noAttribute (operand direct .assignment body)
      return if startsWith "\x7b" text then inParentheses text else text)
  return (if flag node .isAsync then "async " else "") ++ parameters ++ " => " ++ text

/-- Prints a class. -/
def classForm (node : Node) : Printer Text := do
  let name : Text ← (do
    match ← field node .id with
    | .null => return ""
    | name => return " " ++ (← recur name))
  let superClass : Text ← (do
    match ← field node .superClass with
    | .null => return ""
    | value => return " extends " ++ (← operand recur .call value))
  return "class" ++ name ++ superClass ++ " " ++ (← recur (← field node .body))

/-- Prints an operator before its operand, with a space where the two would run together. -/
def unary (direct : Value → Printer Text) (node : Node) : Printer Text := do
  let argument ← field node .argument
  let operator := node.get .operator
  let isWord := (operator.text?.map fun text => text != "" && text.toList.all isLetter).getD false
  let argument ← asText (if isWord then .misfit else .noAttribute) (operand direct .unary argument)
  let operator : Text ← (do
    match ← field node .operator with
    | .text operator => return operator
    | _ => refuse .noAttribute)
  if isWord || startsWith operator argument then return operator ++ " " ++ argument
  else return operator ++ argument

/-- Prints `++` or `--` with its operand. -/
def update (node : Node) : Printer Text := do
  if (← field node .leading).isTrue then
    let operator ← textField node .operator
    return operator ++ (← operand recur .unary (← field node .argument))
  else
    let argument ← operand recur .update (← field node .argument)
    return argument ++ (← textField node .operator)

/-- Prints a binary operator between its operands. It groups to the left; `**` groups to the right,
and refuses an operator before its left operand. -/
def binary (node : Node) : Printer Text := do
  let rank ← operatorRank node
  let operator ← textField node .operator
  let (least, greatest) :=
    if operator == "**" then (Binding.update.rank, rank) else (rank, rank + 1)
  let left ← operandAbove recur least (← field node .left)
  let right ← operandAbove recur greatest (← field node .right)
  return left ++ " " ++ operator ++ " " ++ right

/-- Prints a member access. -/
def member (direct : Value → Printer Text) (node : Node) : Printer Text := do
  let object ← base recur direct (← field node .object)
  let optional := flag node .optional
  if (← field node .computed).isTrue then
    let property ← operand recur .sequence (← field node .property)
    return object ++ (if optional then "?.[" else "[") ++ property ++ "]"
  else
    let property ← recur (← field node .property)
    return object ++ (if optional then "?." else ".") ++ property

/-- Prints a node that is an expression or a part of one. What `direct` prints need not be text. -/
def expressionForm? (direct : Value → Printer Text) (node : Node) : Option (Printer Text) :=
  match node.kind with
  | .identifier => some (nameField node .name)
  | .privateIdentifier => some do return "#" ++ (← textField node .name)
  | .literal => some (literal node)
  | .thisExpression => some (return "this")
  | .superKeyword => some (return "super")
  | .templateLiteral => some do
    return "\x60" ++ (← templateParts recur node 0 (← listField node .quasis)) ++ "\x60"
  | .templateElement => some (nameField node .raw)
  | .taggedTemplateExpression => some do
    let tag ← operand recur .call (← field node .tag)
    return tag ++ (← recur (← field node .quasi))
  | .arrayExpression | .arrayPattern => some (elements recur node)
  | .objectExpression | .objectPattern => some (properties recur node)
  | .property => some (property recur direct node)
  | .spreadElement | .restElement => some do
    return "..." ++ (← operand recur .assignment (← field node .argument))
  | .assignmentPattern => some do
    let left ← operand recur .call (← field node .left)
    return left ++ " = " ++ (← operand recur .assignment (← field node .right))
  | .functionExpression => some (functionForm recur node)
  | .arrowFunctionExpression => some (arrow recur direct node)
  | .classExpression => some (classForm recur node)
  | .unaryExpression => some (unary direct node)
  | .updateExpression => some (update recur node)
  | .binaryExpression | .logicalExpression => some (binary recur node)
  | .assignmentExpression => some do
    let left ← operand recur .call (← field node .left)
    let operator ← textField node .operator
    return left ++ " " ++ operator ++ " " ++ (← operand recur .assignment (← field node .right))
  | .conditionalExpression => some do
    let test ← operand recur .coalesce (← field node .test)
    let consequent ← operand recur .assignment (← field node .consequent)
    let alternate ← operand recur .assignment (← field node .alternate)
    return test ++ " ? " ++ consequent ++ " : " ++ alternate
  | .callExpression => some do
    let callee ← base recur direct (← field node .callee)
    let arguments ← argumentList recur (← field node .arguments)
    return callee ++ (if flag node .optional then "?." else "") ++ arguments
  | .newExpression => some do
    let callee ← operand recur .member (← field node .callee)
    return "new " ++ callee ++ (← argumentList recur (← field node .arguments))
  | .memberExpression => some (member recur direct node)
  | .chainExpression => some do direct (← field node .expression)
  | .sequenceExpression => some do commaList recur (← listField node .expressions)
  | .awaitExpression => some do
    return "await " ++ (← operand recur .unary (← field node .argument))
  | .yieldExpression => some do
    let word := if (← field node .delegate).isTrue then "yield*" else "yield"
    match ← field node .argument with
    | .null => return word
    | argument => return word ++ " " ++ (← operand recur .assignment argument)
  | .metaProperty => some do
    let word ← recur (← field node .metaName)
    return word ++ "." ++ (← recur (← field node .property))
  | .importExpression => some do
    return "import(" ++ (← operand recur .assignment (← field node .source)) ++ ")"
  | _ => none

end Printer

end DocTypes
