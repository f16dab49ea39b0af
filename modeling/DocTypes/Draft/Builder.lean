import DocTypes.Draft.Docs

/-!
# New things

Nodes, tags, blocks and types that were not read from a source. They have no place in it, so they
are printed from their structure. A thing keeps the lists that it is made with.
-/

namespace DocTypes

/-- Why something cannot be made. -/
inductive BuildFault where
  | typing (error : TypeError)
  | access (fault : AccessFault)
deriving DecidableEq, Repr

/-- Makes things in a draft. -/
abbrev Build := StateT Draft (Except BuildFault)

namespace Build

/-- Changes the draft, with an answer. -/
def perform {α : Type} (edit : Draft → Except AccessFault (α × Draft)) : Build α := fun draft =>
  (edit draft).mapError .access

/-- Changes the draft. -/
def change (edit : Draft → Except AccessFault Draft) : Build Unit :=
  perform fun draft => return ((), ← edit draft)

/-- Asks the draft. -/
def ask {α : Type} (question : Draft → Except AccessFault α) : Build α :=
  perform fun draft => return (← question draft, draft)

/-- Makes a thing. -/
def make (thing : Thing) : Build Datum :=
  modifyGet (Draft.add thing)

/-- A list. -/
def list (items : List Datum) : Build Datum :=
  make (.list items)

/-- A node of a kind with these fields. -/
def node (kind : String) (fields : List (String × Datum)) : Build Datum :=
  make <| .record .node <|
    fields.foldl (fun attributes (name, value) => assignName name value attributes)
      (nodeAttributes kind .null .null .null .null [])

/-- A name. -/
def identifier (name : Datum) : Build Datum :=
  node "Identifier" [("name", name)]

/-- A literal with a value. -/
def literal (value : Datum) : Build Datum :=
  node "Literal" [("value", value), ("raw", .null)]

/-- An access to a member. A text stands for the name that it spells. -/
def member (object property computed : Datum) : Build Datum := do
  let property ← (do
    match property with
    | .text _ | .decoded _ => identifier property
    | property => return property)
  node "MemberExpression"
    [("object", object), ("property", property), ("computed", computed), ("optional", .bool false)]

/-- A call. -/
def call (callee arguments : Datum) : Build Datum :=
  node "CallExpression"
    [("callee", callee), ("arguments", arguments), ("optional", .bool false)]

/-- A statement that is an expression. -/
def expressionStatement (expression : Datum) : Build Datum :=
  node "ExpressionStatement" [("expression", expression)]

/-- A statement that returns a value. -/
def returnStatement (argument : Datum) : Build Datum :=
  node "ReturnStatement" [("argument", argument)]

/-- A declaration of one variable. -/
def variableDeclaration (kind name init : Datum) : Build Datum := do
  let declarator ← node "VariableDeclarator" [("id", ← identifier name), ("init", init)]
  node "VariableDeclaration" [("kind", kind), ("declarations", ← list [declarator])]

/-- A type that is read from a text. -/
def readType (arena : Datum) (text : String) (line : Nat) : Build Datum := do
  match TypeExpr.read text.toList line with
  | .ok type => perform (Draft.addType arena type)
  | .error error => throw (.typing error)

/-- A tag with these attributes and no others. -/
def tagWith (title type key name description : Datum) : Build Datum :=
  make <| .record .tag
    [("type", .text "DocTag"), ("tag", title), ("raw_type", type), ("parsed_type", key),
     ("name", name), ("optional", .bool false), ("default", .null), ("description", description),
     ("line", .nat 0), ("parent", .null)]

/-- A tag. A type that is given is read. -/
def tag (arena title type name description : Datum) : Build Datum := do
  let draft ← get
  let key ← (do
    if draft.isTrue type then readType arena (← ask fun _ => type.asText) 1
    else return .null)
  let lines ← (do
    if draft.isTrue description then
      return Block.linesOf (← ask fun _ => description.asText .noAttribute)
    else return [])
  tagWith title type key name (← list (lines.map .text))

/-- A block with these tags, and with the lines of a description perhaps. -/
def block (tags description : Datum) : Build Datum := do
  let lines ← ask fun draft => if draft.isTrue description then draft.items description else .ok []
  let made ← make <| .record .block
    [("type", .text "DocBlock"), ("tags", tags), ("description", ← list lines),
     ("initial", .text ""), ("delimiter", .text "/**"), ("terminal", .text "*/"),
     ("one_line", .bool false), ("leading_break", .bool false), ("end_line", .bool false),
     ("start", .null), ("end", .null), ("line", .nat 0), ("tags_removed", .nat 0),
     ("parent", .null)]
  (← ask fun draft => draft.items tags).forM fun tag => change (Draft.assign tag "parent" made)
  return made

/-- A block on one line that says of what type the expression after it is. -/
def typeCast (arena type : Datum) : Build Datum := do
  let tag ← tag arena (.text "type") type (.text "") (.text "")
  let made ← block (← list [tag]) .null
  change (Draft.assign made "one_line" (.bool true))
  return made

/-- A block on lines of its own that gives a type a name. The type is kept as text: it may hold
members that are not part of the language of types. -/
def typedef (name type : Datum) : Build Datum := do
  let tag ← tagWith (.text "typedef") type .null name (← list [])
  let made ← block (← list [tag]) .null
  change (Draft.assign made "leading_break" (.bool true))
  change (Draft.assign made "end_line" (.bool true))
  return made

/-- The key of a type that is a name. -/
def typeName (arena value : Datum) : Build Datum :=
  perform (Draft.addSlot arena "TypeName" [("value", value)])

/-- The key of a union. -/
def typeUnion (arena elements : Datum) : Build Datum :=
  perform (Draft.addSlot arena "TypeUnion" [("elements", elements)])

/-- The key of an intersection. -/
def typeIntersection (arena elements : Datum) : Build Datum :=
  perform (Draft.addSlot arena "TypeIntersection" [("elements", elements)])

/-- The key of a type with arguments. -/
def typeGeneric (arena head elements : Datum) : Build Datum :=
  perform <| Draft.addSlot arena "TypeGeneric"
    [("left", head), ("elements", elements), ("dot", .bool false)]

/-- The key of an object type. Each field is a list of its name and the key of its type. -/
def typeObject (arena fields : Datum) : Build Datum := do
  let keys ← (← ask fun draft => draft.items fields).mapM fun field => do
    match ← ask fun draft => draft.items field with
    | [name, type] =>
      perform <| Draft.addSlot arena "TypeObjectField"
        [("name", name), ("right", type), ("optional", .bool false), ("readonly", .bool false),
         ("quote", .text "")]
    | _ => throw (.access .wrongCount)
  let keys ← list keys
  perform (Draft.addSlot arena "TypeObject" [("fields", keys), ("separator", .text ";")])

/-- The key of a function type. Each parameter is a list of its name, the key of its type, and
whether it is optional. -/
def typeFunction (arena parameters result : Datum) : Build Datum := do
  let keys ← (← ask fun draft => draft.items parameters).mapM fun parameter => do
    match ← ask fun draft => draft.items parameter with
    | [name, type, optional] =>
      perform <| Draft.addSlot arena "TypeKeyValue"
        [("name", name), ("right", type), ("optional", optional), ("variadic", .bool false)]
    | _ => throw (.access .wrongCount)
  let keys ← list keys
  perform <| Draft.addSlot arena "TypeFunction"
    [("parameters", keys), ("return_type", result), ("arrow", .bool true),
     ("constructor", .bool false)]

end Build

end DocTypes
