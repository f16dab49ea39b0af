import DocTypes.Doc.Basic
import DocTypes.Number.Numeral
import DocTypes.Tree.Kind
import DocTypes.TypeExpr.Arena

/-!
# Syntax nodes

A node has a kind and named fields, whose values are nodes, lists, or plain data. Every node carries
a number of its own: a node that stands in two places has the same number in both, and whoever
edits it edits both. Nodes that were read from a source have a span; nodes made later have none.
-/

namespace DocTypes

mutual

/-- A syntax node. `parent` is the number of the node that held it when the source had been read,
and `doc` the number of the block that documents it. -/
inductive Node where
  | mk (kind : Kind) (id : Nat) (span : Option Span) (parent doc : Option Nat)
    (fields : List (Field × Value))

/-- The value of a field. -/
inductive Value where
  | null
  | bool (value : Bool)
  | text (value : String)
  /-- the code points of a decoded string literal -/
  | decoded (points : List Nat)
  | number (value : Number)
  | regex (pattern flags : String)
  | node (value : Node)
  | list (items : List Value)
  /-- a documentation block, by its number -/
  | block (id : Nat)
  | tag (value : Tag)
  | type (value : TypeNode)
  /-- the program's arena of types -/
  | types
  /-- something that is not part of the tree, by its number and the name of its kind -/
  | foreign (id : Nat) (kind : Option String)

end

instance : Inhabited Value := ⟨.null⟩

namespace Node

/-- The kind of a node. -/
def kind : Node → Kind
  | .mk kind _ _ _ _ _ => kind

/-- The number of a node. -/
def id : Node → Nat
  | .mk _ id _ _ _ _ => id

/-- The source text that a node covers. -/
def span : Node → Option Span
  | .mk _ _ span _ _ _ => span

/-- The number of the node above it. -/
def parent : Node → Option Nat
  | .mk _ _ _ parent _ _ => parent

/-- The number of the block that documents it. -/
def doc : Node → Option Nat
  | .mk _ _ _ _ doc _ => doc

/-- The fields in the order in which they were set. -/
def fields : Node → List (Field × Value)
  | .mk _ _ _ _ _ fields => fields

/-- The offset at which the node starts. -/
def start? (node : Node) : Option Nat :=
  node.span.map Span.start

/-- The node with another span. -/
def withSpan (span : Option Span) : Node → Node
  | .mk kind id _ parent doc fields => .mk kind id span parent doc fields

/-- The node with another parent. -/
def withParent (parent : Option Nat) : Node → Node
  | .mk kind id span _ doc fields => .mk kind id span parent doc fields

/-- The node with another block. -/
def withDoc (doc : Option Nat) : Node → Node
  | .mk kind id span parent _ fields => .mk kind id span parent doc fields

/-- The node with other fields. -/
def withFields (fields : List (Field × Value)) : Node → Node
  | .mk kind id span parent doc _ => .mk kind id span parent doc fields

/-- The value of a field that is set. -/
def get? (node : Node) (field : Field) : Option Value :=
  node.fields.lookup field

/-- The value of a field, null if it is not set. -/
def get (node : Node) (field : Field) : Value :=
  (node.get? field).getD .null

/-- Gives a field a value. A field that is set keeps its place. -/
def set (node : Node) (field : Field) (value : Value) : Node :=
  if (node.get? field).isSome then
    node.withFields (node.fields.map fun f => if f.1 == field then (field, value) else f)
  else node.withFields (node.fields ++ [(field, value)])

end Node

namespace Value

/-- The node that a value is. -/
def node? : Value → Option Node
  | .node value => some value
  | _ => none

/-- The text that a value is. -/
def text? : Value → Option String
  | .text value => some value
  | _ => none

/-- The text of code points that a value is. -/
def wideText? : Value → Option Text
  | .text value => some value
  | .decoded points => some ⟨points⟩
  | _ => none

/-- The items of a list. -/
def items? : Value → Option (List Value)
  | .list items => some items
  | _ => none

/-- What a walk through a value meets: the items of a list, the characters of a text. -/
def elements? : Value → Option (List Value)
  | .list items => some items
  | .text value => some (value.toList.map fun c => .text c.toString)
  | .regex _ _ => some [.text "pattern", .text "flags"]
  | _ => none

/-- Is it null? -/
def isNull : Value → Bool
  | .null => true
  | _ => false

/-- Nothing, false, zero and the empty texts and lists count as false, all else as true. -/
def isTrue : Value → Bool
  | .null => false
  | .bool value => value
  | .text value => value != ""
  | .decoded points => !points.isEmpty
  | .number (.int value) => value != 0
  | .number (.float value) => value != Binary64.zero false && value != Binary64.zero true
  | .list items => !items.isEmpty
  | .regex _ _ | .node _ | .block _ | .tag _ | .type _ | .types | .foreign _ _ => true

/-- An optional node as a value. -/
def ofNode? : Option Node → Value
  | some value => .node value
  | none => .null

/-- The value itself, or its items if it is a list. -/
def flat : Value → List Value
  | .list items => items
  | value => [value]

end Value

namespace Node

/-- The values of the child fields, lists taken apart, in source order. -/
def childValues (node : Node) : List Value :=
  node.kind.childFields.flatMap fun field => (node.get field).flat

/-- The nodes right below a node, in source order. -/
def childNodes (node : Node) : List Node :=
  node.childValues.filterMap Value.node?

mutual

/-- The number of layers of a node. -/
def height : Node → Nat
  | .mk _ _ _ _ _ fields => fieldsHeight fields + 1

/-- The number of layers of the highest field. -/
def fieldsHeight : List (Field × Value) → Nat
  | [] => 0
  | (_, value) :: rest => max (valueHeight value) (fieldsHeight rest)

/-- The number of layers of a value. -/
def valueHeight : Value → Nat
  | .node node => node.height
  | .list items => itemsHeight items
  | _ => 0

/-- The number of layers of the highest item. -/
def itemsHeight : List Value → Nat
  | [] => 0
  | value :: rest => max (valueHeight value) (itemsHeight rest)

end

mutual

/-- Applies `f` to every node, to those below a node before the node itself. -/
def mapNodes (f : Node → Node) : Node → Node
  | .mk kind id span parent doc fields => f (.mk kind id span parent doc (mapFields f fields))

/-- Applies `f` to every node of fields. -/
def mapFields (f : Node → Node) : List (Field × Value) → List (Field × Value)
  | [] => []
  | (field, value) :: rest => (field, mapValue f value) :: mapFields f rest

/-- Applies `f` to every node of a value. -/
def mapValue (f : Node → Node) : Value → Value
  | .node node => .node (node.mapNodes f)
  | .list items => .list (mapItems f items)
  | .null => .null
  | .bool value => .bool value
  | .text value => .text value
  | .decoded points => .decoded points
  | .number value => .number value
  | .regex pattern flags => .regex pattern flags
  | .block id => .block id
  | .tag value => .tag value
  | .type value => .type value
  | .types => .types
  | .foreign id kind => .foreign id kind

/-- Applies `f` to every node of a list. -/
def mapItems (f : Node → Node) : List Value → List Value
  | [] => []
  | value :: rest => mapValue f value :: mapItems f rest

end

/-- The node and the nodes below it, `levels` layers deep, each before those below it. -/
def walkTo : Nat → Node → List Node
  | 0, _ => []
  | levels + 1, node => node :: node.childNodes.flatMap (walkTo levels)

/-- The node and all nodes below it, each before those below it. -/
def walk (node : Node) : List Node :=
  walkTo node.height node

/-- Tells the nodes right below a node who stands above them. -/
def adopt (node : Node) : Node :=
  let adopted : Value → Value
    | .node child => .node (child.withParent (some node.id))
    | value => value
  node.withFields <| node.fields.map fun (field, value) =>
    if node.kind.childFields.contains field then
      match value with
      | .list items => (field, .list (items.map adopted))
      | value => (field, adopted value)
    else (field, value)

/-- Tells every node below a node who stands above it. -/
def linkParents (node : Node) : Node :=
  node.mapNodes adopt

/-- The node with a number, in the tree of a node. -/
def find? (node : Node) (id : Nat) : Option Node :=
  node.walk.find? fun n => n.id == id

end Node

end DocTypes
