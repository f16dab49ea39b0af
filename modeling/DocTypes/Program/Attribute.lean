import DocTypes.Program.Basic

/-!
# Attributes

Nodes, blocks, tags and types are inspected by the names of their attributes. `Program.attribute?`
gives the value of an attribute, and `Value.kindText?` the name of the kind of thing that a value
is. Types are stored by key, so where an attribute of a type is another type its value is a number.
-/

namespace DocTypes

/-- A key as a value. -/
def Value.key (key : Nat) : Value :=
  .number (.int key)

/-- A key that may be missing as a value. -/
def Value.key? : Option Nat → Value
  | some key => .key key
  | none => .null

/-- Keys as a value. -/
def Value.keys (keys : List Nat) : Value :=
  .list (keys.map .key)

/-- Lines as a value. -/
def Value.lines (lines : List String) : Value :=
  .list (lines.map .text)

namespace TypeShape

/-- The name of the kind of a type. -/
def kindText : TypeShape Nat → String
  | .name _ => "TypeName"
  | .any => "TypeAny"
  | .unknown => "TypeUnknown"
  | .string _ _ => "TypeStringValue"
  | .number _ => "TypeNumber"
  | .union _ => "TypeUnion"
  | .intersection _ => "TypeIntersection"
  | .generic _ _ _ => "TypeGeneric"
  | .array _ => "TypeArray"
  | .field _ _ _ _ _ => "TypeObjectField"
  | .object _ _ => "TypeObject"
  | .tuple _ => "TypeTuple"
  | .parameter _ _ _ _ => "TypeKeyValue"
  | .function _ _ _ _ => "TypeFunction"
  | .parenthesis _ => "TypeParenthesis"
  | .nullable _ _ => "TypeNullable"
  | .notNullable _ _ => "TypeNotNullable"
  | .optional _ => "TypeOptional"
  | .variadic _ => "TypeVariadic"
  | .typeof _ => "TypeTypeof"
  | .keyof _ => "TypeKeyof"

/-- The names of all kinds of types. -/
def kindTexts : List String :=
  ["TypeName", "TypeAny", "TypeUnknown", "TypeStringValue", "TypeNumber", "TypeUnion",
   "TypeIntersection", "TypeGeneric", "TypeArray", "TypeObjectField", "TypeObject", "TypeTuple",
   "TypeKeyValue", "TypeFunction", "TypeParenthesis", "TypeNullable", "TypeNotNullable",
   "TypeOptional", "TypeVariadic", "TypeTypeof", "TypeKeyof"]

/-- The attributes of a type. -/
def attributes : TypeShape Nat → List (String × Value)
  | .name text | .number text => [("value", .text text)]
  | .any | .unknown => []
  | .string text quote => [("value", .text text), ("quote", .text quote.toString)]
  | .union elements | .intersection elements | .tuple elements => [("elements", .keys elements)]
  | .generic head arguments dotted =>
    [("left", .key head), ("elements", .keys arguments), ("dot", .bool dotted)]
  | .array element | .parenthesis element | .typeof element | .keyof element =>
    [("element", .key element)]
  | .field label type isOptional readonly quote =>
    [("name", .text label), ("right", .key? type), ("optional", .bool isOptional),
     ("readonly", .bool readonly), ("quote", .text ((quote.map Char.toString).getD ""))]
  | .object fields separator =>
    [("fields", .keys fields), ("separator", .text separator.toString)]
  | .parameter label type isOptional isVariadic =>
    [("name", .text label), ("right", .key? type), ("optional", .bool isOptional),
     ("variadic", .bool isVariadic)]
  | .function parameters result arrow constructs =>
    [("parameters", .keys parameters), ("return_type", .key? result), ("arrow", .bool arrow),
     ("constructor", .bool constructs)]
  | .nullable element leading | .notNullable element leading =>
    [("element", .key element), ("prefix", .bool leading)]
  | .optional element => [("element", .key element), ("prefix", .bool false)]
  | .variadic element => [("element", .key? element), ("prefix", .bool true)]

end TypeShape

/-- The attributes of a type, its kind and key included. -/
def TypeNode.attributes (node : TypeNode) : List (String × Value) :=
  ("type", .text node.shape.kindText) :: ("key", .key node.key) :: node.shape.attributes

/-- The attributes of a tag. -/
def Tag.attributes (tag : Tag) : List (String × Value) :=
  [("type", .text "DocTag"), ("tag", .text tag.title), ("raw_type", .text tag.typeText),
   ("parsed_type", .key? tag.typeKey), ("name", .text tag.name), ("optional", .bool tag.optional),
   ("default", (tag.defaultText.map Value.text).getD .null),
   ("description", .lines tag.description), ("line", .key tag.line),
   ("parent", (tag.owner.map Value.block).getD .null)]

/-- The attributes of a block but for its parent. -/
def Block.attributes (block : Block) : List (String × Value) :=
  [("type", .text "DocBlock"), ("tags", .list (block.tags.map .tag)),
   ("description", .lines block.description), ("initial", .text block.indent),
   ("delimiter", .text block.opening), ("terminal", .text block.closing),
   ("one_line", .bool block.oneLine), ("leading_break", .bool block.leadingBreak),
   ("end_line", .bool block.trailingBreak), ("start", .key? (block.span.map Span.start)),
   ("end", .key? (block.span.map Span.stop)), ("line", .key block.line),
   ("tags_removed", .key block.removedTags)]

/-- The name of the kind of thing that a value is. -/
def Value.kindText? : Value → Option String
  | .node value => if value.kind == .unnamed then none else some value.kind.text
  | .block _ => some "DocBlock"
  | .tag _ => some "DocTag"
  | .type value => some value.shape.kindText
  | .foreign _ kind => kind
  | _ => none

namespace Program

/-- The attributes that only the root of a program has. -/
def rootAttributes (program : Program) : List (String × Value) :=
  match program.source with
  | none => []
  | some source =>
    [("source_text", .text (String.ofList source)),
     ("doc_blocks", .list (program.registered.map .block)),
     ("source_blocks", .list (program.sourceBlocks.map .block)),
     ("comments", .list ((List.range program.comments.length).map fun id => .foreign id none)),
     ("types", .types)]

/-- A node by its number, as a value. -/
def nodeValue (program : Program) (id? : Option Nat) : Value :=
  .ofNode? (id?.bind program.node?)

/-- The value of an attribute of a node. -/
def nodeAttribute? (program : Program) (node : Node) (name : String) : Option Value :=
  match name with
  | "type" => some (.text node.kind.text)
  | "start" => some (.key? (node.span.map Span.start))
  | "end" => some (.key? (node.span.map Span.stop))
  | "parent" => some (program.nodeValue node.parent)
  | "jsdoc" => some ((node.doc.map Value.block).getD .null)
  | _ =>
    match node.get? (Field.ofText name) with
    | some value => some value
    | none => if node.id == program.root.id then program.rootAttributes.lookup name else none

/-- The value of an attribute of a block. -/
def blockAttribute? (program : Program) (id : Nat) (name : String) : Option Value := do
  let block ← program.block? id
  if name == "parent" then return program.nodeValue block.owner
  block.attributes.lookup name

/-- The value of an attribute of the arena. -/
def typesAttribute? (program : Program) (name : String) : Option Value :=
  match name with
  | "slots" => some (.list (program.types.slots.toList.map .type))
  | "replaced" => some (.keys program.types.replaced)
  | _ => none

/-- The value of an attribute of a value. Plain data has none. -/
def attribute? (program : Program) (value : Value) (name : String) : Option Value :=
  match value with
  | .node node => program.nodeAttribute? node name
  | .block id => program.blockAttribute? id name
  | .tag tag => tag.attributes.lookup name
  | .type node => node.attributes.lookup name
  | .types => program.typesAttribute? name
  | _ => none

end Program

end DocTypes
