import DocTypes.Tree.Field

/-!
# Kinds of syntax nodes

`Kind` lists the kinds of nodes, and `Kind.childFields` says which fields of a node hold the nodes
below it, in the order in which they stand in the source. A kind that is not listed has no such
fields.
-/

namespace DocTypes

/-- The kind of a syntax node. -/
inductive Kind where
  | program | emptyStatement | debuggerStatement | expressionStatement | blockStatement
  | staticBlock | returnStatement | throwStatement | ifStatement | forStatement | forInStatement
  | forOfStatement | whileStatement | doWhileStatement | breakStatement | continueStatement
  | labeledStatement | switchStatement | switchCase | tryStatement | catchClause | withStatement
  | variableDeclaration | variableDeclarator | functionDeclaration | classDeclaration | classBody
  | methodDefinition | propertyDefinition | importDeclaration | importSpecifier
  | importDefaultSpecifier | importNamespaceSpecifier | exportNamedDeclaration | exportSpecifier
  | exportDefaultDeclaration | exportAllDeclaration | identifier | privateIdentifier | literal
  | thisExpression | superKeyword | templateLiteral | templateElement | taggedTemplateExpression
  | arrayExpression | objectExpression | property | spreadElement | functionExpression
  | arrowFunctionExpression | classExpression | unaryExpression | updateExpression
  | binaryExpression | logicalExpression | assignmentExpression | conditionalExpression
  | callExpression | newExpression | memberExpression | chainExpression | sequenceExpression
  | yieldExpression | awaitExpression | metaProperty | importExpression | objectPattern
  | arrayPattern | restElement | assignmentPattern
  | other (text : String)
  /-- the kind of a node that was edited so that its kind is no text -/
  | unnamed
deriving DecidableEq, Repr

/-- The kinds that the reader makes. -/
def Kind.known : List Kind :=
  [.program, .emptyStatement, .debuggerStatement, .expressionStatement, .blockStatement,
   .staticBlock, .returnStatement, .throwStatement, .ifStatement, .forStatement, .forInStatement,
   .forOfStatement, .whileStatement, .doWhileStatement, .breakStatement, .continueStatement,
   .labeledStatement, .switchStatement, .switchCase, .tryStatement, .catchClause, .withStatement,
   .variableDeclaration, .variableDeclarator, .functionDeclaration, .classDeclaration,
   .classBody, .methodDefinition, .propertyDefinition, .importDeclaration, .importSpecifier,
   .importDefaultSpecifier, .importNamespaceSpecifier, .exportNamedDeclaration, .exportSpecifier,
   .exportDefaultDeclaration, .exportAllDeclaration, .identifier, .privateIdentifier, .literal,
   .thisExpression, .superKeyword, .templateLiteral, .templateElement, .taggedTemplateExpression,
   .arrayExpression, .objectExpression, .property, .spreadElement, .functionExpression,
   .arrowFunctionExpression, .classExpression, .unaryExpression, .updateExpression,
   .binaryExpression, .logicalExpression, .assignmentExpression, .conditionalExpression,
   .callExpression, .newExpression, .memberExpression, .chainExpression, .sequenceExpression,
   .yieldExpression, .awaitExpression, .metaProperty, .importExpression, .objectPattern,
   .arrayPattern, .restElement, .assignmentPattern]

/-- The name of a kind. -/
def Kind.text : Kind → String
  | .program => "Program"
  | .emptyStatement => "EmptyStatement"
  | .debuggerStatement => "DebuggerStatement"
  | .expressionStatement => "ExpressionStatement"
  | .blockStatement => "BlockStatement"
  | .staticBlock => "StaticBlock"
  | .returnStatement => "ReturnStatement"
  | .throwStatement => "ThrowStatement"
  | .ifStatement => "IfStatement"
  | .forStatement => "ForStatement"
  | .forInStatement => "ForInStatement"
  | .forOfStatement => "ForOfStatement"
  | .whileStatement => "WhileStatement"
  | .doWhileStatement => "DoWhileStatement"
  | .breakStatement => "BreakStatement"
  | .continueStatement => "ContinueStatement"
  | .labeledStatement => "LabeledStatement"
  | .switchStatement => "SwitchStatement"
  | .switchCase => "SwitchCase"
  | .tryStatement => "TryStatement"
  | .catchClause => "CatchClause"
  | .withStatement => "WithStatement"
  | .variableDeclaration => "VariableDeclaration"
  | .variableDeclarator => "VariableDeclarator"
  | .functionDeclaration => "FunctionDeclaration"
  | .classDeclaration => "ClassDeclaration"
  | .classBody => "ClassBody"
  | .methodDefinition => "MethodDefinition"
  | .propertyDefinition => "PropertyDefinition"
  | .importDeclaration => "ImportDeclaration"
  | .importSpecifier => "ImportSpecifier"
  | .importDefaultSpecifier => "ImportDefaultSpecifier"
  | .importNamespaceSpecifier => "ImportNamespaceSpecifier"
  | .exportNamedDeclaration => "ExportNamedDeclaration"
  | .exportSpecifier => "ExportSpecifier"
  | .exportDefaultDeclaration => "ExportDefaultDeclaration"
  | .exportAllDeclaration => "ExportAllDeclaration"
  | .identifier => "Identifier"
  | .privateIdentifier => "PrivateIdentifier"
  | .literal => "Literal"
  | .thisExpression => "ThisExpression"
  | .superKeyword => "Super"
  | .templateLiteral => "TemplateLiteral"
  | .templateElement => "TemplateElement"
  | .taggedTemplateExpression => "TaggedTemplateExpression"
  | .arrayExpression => "ArrayExpression"
  | .objectExpression => "ObjectExpression"
  | .property => "Property"
  | .spreadElement => "SpreadElement"
  | .functionExpression => "FunctionExpression"
  | .arrowFunctionExpression => "ArrowFunctionExpression"
  | .classExpression => "ClassExpression"
  | .unaryExpression => "UnaryExpression"
  | .updateExpression => "UpdateExpression"
  | .binaryExpression => "BinaryExpression"
  | .logicalExpression => "LogicalExpression"
  | .assignmentExpression => "AssignmentExpression"
  | .conditionalExpression => "ConditionalExpression"
  | .callExpression => "CallExpression"
  | .newExpression => "NewExpression"
  | .memberExpression => "MemberExpression"
  | .chainExpression => "ChainExpression"
  | .sequenceExpression => "SequenceExpression"
  | .yieldExpression => "YieldExpression"
  | .awaitExpression => "AwaitExpression"
  | .metaProperty => "MetaProperty"
  | .importExpression => "ImportExpression"
  | .objectPattern => "ObjectPattern"
  | .arrayPattern => "ArrayPattern"
  | .restElement => "RestElement"
  | .assignmentPattern => "AssignmentPattern"
  | .other text => text
  | .unnamed => ""

/-- The kind with a name. -/
def Kind.ofText (text : String) : Kind :=
  (Kind.known.find? fun kind => kind.text == text).getD (.other text)

/-- The fields that hold the nodes below a node, in source order. -/
def Kind.childFields : Kind → List Field
  | .program | .blockStatement | .staticBlock | .classBody => [.body]
  | .expressionStatement | .chainExpression => [.expression]
  | .returnStatement | .throwStatement | .spreadElement | .unaryExpression | .updateExpression
  | .yieldExpression | .awaitExpression | .restElement =>
    [.argument]
  | .ifStatement | .conditionalExpression => [.test, .consequent, .alternate]
  | .forStatement => [.init, .test, .update, .body]
  | .forInStatement | .forOfStatement => [.left, .right, .body]
  | .whileStatement => [.test, .body]
  | .doWhileStatement => [.body, .test]
  | .breakStatement | .continueStatement => [.label]
  | .labeledStatement => [.label, .body]
  | .switchStatement => [.discriminant, .cases]
  | .switchCase => [.test, .consequent]
  | .tryStatement => [.block, .handler, .finalizer]
  | .catchClause => [.param, .body]
  | .withStatement => [.object, .body]
  | .variableDeclaration => [.declarations]
  | .variableDeclarator => [.id, .init]
  | .functionDeclaration | .functionExpression => [.id, .params, .body]
  | .classDeclaration | .classExpression => [.id, .superClass, .body]
  | .methodDefinition | .propertyDefinition | .property => [.key, .value]
  | .importDeclaration => [.specifiers, .source]
  | .importSpecifier => [.imported, .localName]
  | .importDefaultSpecifier | .importNamespaceSpecifier => [.localName]
  | .exportNamedDeclaration => [.declaration, .specifiers, .source]
  | .exportSpecifier => [.localName, .exported]
  | .exportDefaultDeclaration => [.declaration]
  | .exportAllDeclaration => [.exported, .source]
  | .templateLiteral => [.quasis, .expressions]
  | .taggedTemplateExpression => [.tag, .quasi]
  | .arrayExpression | .arrayPattern => [.elements]
  | .objectExpression | .objectPattern => [.properties]
  | .arrowFunctionExpression => [.params, .body]
  | .binaryExpression | .logicalExpression | .assignmentExpression | .assignmentPattern =>
    [.left, .right]
  | .callExpression | .newExpression => [.callee, .arguments]
  | .memberExpression => [.object, .property]
  | .sequenceExpression => [.expressions]
  | .metaProperty => [.metaName, .property]
  | .importExpression => [.source]
  | _ => []

end DocTypes
