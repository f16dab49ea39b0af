/-!
# Named fields

The parts of a syntax node have names. `Field` lists those that the reader sets; any other name is
kept as it is.
-/

namespace DocTypes

/-- The name of a node's field. -/
inductive Field where
  | body | expression | argument | test | consequent | alternate | init | update | left | right
  | label | discriminant | cases | block | handler | finalizer | param | object | declarations
  | id | params | superClass | key | value | specifiers | source | imported | localName
  | declaration | exported | quasis | expressions | tag | quasi | elements | properties | callee
  | arguments | property | metaName | kind | isAwait | computed | isStatic | isAsync | generator
  | expressionBody | operator | leading | delegate | optional | method | shorthand | name | raw
  | regex | cooked | tail | sourceType
  | other (text : String)
deriving DecidableEq, Repr

/-- The fields that the reader sets. -/
def Field.known : List Field :=
  [.body, .expression, .argument, .test, .consequent, .alternate, .init, .update, .left, .right,
   .label, .discriminant, .cases, .block, .handler, .finalizer, .param, .object, .declarations,
   .id, .params, .superClass, .key, .value, .specifiers, .source, .imported, .localName,
   .declaration, .exported, .quasis, .expressions, .tag, .quasi, .elements, .properties, .callee,
   .arguments, .property, .metaName, .kind, .isAwait, .computed, .isStatic, .isAsync, .generator,
   .expressionBody, .operator, .leading, .delegate, .optional, .method, .shorthand, .name, .raw,
   .regex, .cooked, .tail, .sourceType]

/-- The name as it is written. -/
def Field.text : Field → String
  | .body => "body"
  | .expression => "expression"
  | .argument => "argument"
  | .test => "test"
  | .consequent => "consequent"
  | .alternate => "alternate"
  | .init => "init"
  | .update => "update"
  | .left => "left"
  | .right => "right"
  | .label => "label"
  | .discriminant => "discriminant"
  | .cases => "cases"
  | .block => "block"
  | .handler => "handler"
  | .finalizer => "finalizer"
  | .param => "param"
  | .object => "object"
  | .declarations => "declarations"
  | .id => "id"
  | .params => "params"
  | .superClass => "super_class"
  | .key => "key"
  | .value => "value"
  | .specifiers => "specifiers"
  | .source => "source"
  | .imported => "imported"
  | .localName => "local"
  | .declaration => "declaration"
  | .exported => "exported"
  | .quasis => "quasis"
  | .expressions => "expressions"
  | .tag => "tag"
  | .quasi => "quasi"
  | .elements => "elements"
  | .properties => "properties"
  | .callee => "callee"
  | .arguments => "arguments"
  | .property => "property"
  | .metaName => "meta"
  | .kind => "kind"
  | .isAwait => "is_await"
  | .computed => "computed"
  | .isStatic => "is_static"
  | .isAsync => "is_async"
  | .generator => "generator"
  | .expressionBody => "expression_body"
  | .operator => "operator"
  | .leading => "prefix"
  | .delegate => "delegate"
  | .optional => "optional"
  | .method => "method"
  | .shorthand => "shorthand"
  | .name => "name"
  | .raw => "raw"
  | .regex => "regex"
  | .cooked => "cooked"
  | .tail => "tail"
  | .sourceType => "source_type"
  | .other text => text

/-- The field with a name. -/
def Field.ofText (text : String) : Field :=
  (Field.known.find? fun field => field.text == text).getD (.other text)

end DocTypes
