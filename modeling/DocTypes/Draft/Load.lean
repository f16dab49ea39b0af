import DocTypes.Draft.Operation
import DocTypes.Program.Attribute

/-!
# Drafts of programs

A program that was read becomes a draft: every node, block, tag and type gets the attributes that it
has by name, and every list becomes a thing of its own.
-/

namespace DocTypes

/-- A whole number that may be missing. -/
def Datum.nat? : Option Nat → Datum
  | some value => .nat value
  | none => .null

/-- A thing that may be missing. -/
def Datum.thing? : Option Nat → Datum
  | some ref => .thing ref
  | none => .null

/-- The attributes of a node with these fields. -/
def nodeAttributes (kind : String) (start stop parent doc : Datum)
    (fields : List (String × Datum)) :
    List (String × Datum) :=
  [("type", .text kind), ("start", start), ("end", stop), ("parent", parent), ("jsdoc", doc)] ++
    fields

/-- The attributes of a comment. -/
def Comment.attributes (comment : Comment) : List (String × Datum) :=
  [("kind", .text comment.kind.text), ("value", .text (String.ofList comment.text)),
   ("start", .nat comment.span.start), ("end", .nat comment.span.stop),
   ("line", .nat comment.line)]

namespace Draft

/-- Adds a thing to the draft. -/
def adding (thing : Thing) : StateM Draft Datum :=
  modifyGet (add thing)

/-- A draft with nothing but an empty arena. -/
def blank : Draft where
  things := #[.record .arena [("slots", .thing 1), ("replaced", .thing 2)], .list [], .members []]
  arena := .thing 0

section

/-! In a draft of a program, a node has its own number, and a block its own after those of all
nodes: `base` is the number of the first block. -/

variable (base : Nat)

mutual

/-- Puts a node and all below it into the draft. -/
def loadNode : Node → StateM Draft Unit
  | .mk kind id span parent doc fields => do
    let fields ← loadFields fields
    modify <| put id <| .record .node <|
      nodeAttributes kind.text (.nat? (span.map Span.start)) (.nat? (span.map Span.stop))
        (.thing? parent) (.thing? (doc.map (base + ·))) fields

/-- Puts the values of fields into the draft. -/
def loadFields : List (Field × Value) → StateM Draft (List (String × Datum))
  | [] => return []
  | (field, value) :: rest => do
    let first ← load value
    return (field.text, first) :: (← loadFields rest)

/-- Puts a value into the draft. -/
def load : Value → StateM Draft Datum
  | .node node => do
    loadNode node
    return .thing node.id
  | .list items => do adding (.list (← loadItems items))
  | .regex pattern flags =>
    adding (.table [(.text "pattern", .text pattern), (.text "flags", .text flags)])
  | .block id => return .thing (base + id)
  | .bool value => return .bool value
  | .text value => return .text value
  | .decoded points => return .ofPoints points
  | .number value => return .number value
  | .null | .tag _ | .type _ | .types | .foreign _ _ => return .null

/-- Puts the items of a list into the draft. -/
def loadItems : List Value → StateM Draft (List Datum)
  | [] => return []
  | value :: rest => do
    let first ← load value
    return first :: (← loadItems rest)

end

/-- Puts attributes into the draft. -/
def loadAttributes (attributes : List (String × Value)) : StateM Draft (List (String × Datum)) :=
  attributes.mapM fun (name, value) => return (name, ← load base value)

/-- Puts a type into the draft. -/
def loadType (node : TypeNode) : StateM Draft Datum := do
  adding (.record (.type node.shape.kindText) (← loadAttributes base node.attributes))

/-- Puts a tag into the draft. -/
def loadTag (tag : Tag) : StateM Draft Datum := do
  adding (.record .tag (← loadAttributes base tag.attributes))

/-- Puts a block into the draft. -/
def loadBlock (id : Nat) (block : Block) : StateM Draft Unit := do
  let tags ← adding (.list (← block.tags.mapM (loadTag base)))
  let attributes ← loadAttributes base (block.attributes.filter fun a => a.1 != "tags")
  modify <| put (base + id) <| .record .block <|
    attributes ++ [("tags", tags), ("parent", .thing? block.owner)]

/-- Puts a list of blocks into the draft, by their numbers. -/
def loadNumbers (ids : List Nat) : StateM Draft Datum :=
  adding (.list (ids.map fun id => .thing (base + id)))

/-- Puts the types of an arena into the draft. -/
def loadArena (arena : Arena) : StateM Draft Datum := do
  let slots ← adding (.list (← arena.slots.toList.mapM (loadType base)))
  let replaced ← adding (.members (arena.replaced.map .nat))
  adding (.record .arena [("slots", slots), ("replaced", replaced)])

end

/-- Puts comments into the draft. -/
def loadComments (comments : List Comment) : StateM Draft Datum := do
  adding (.list (← comments.mapM fun comment => adding (.record .comment comment.attributes)))

/-- Puts the parts of a program into the draft, and gives its arena and the attributes that its root
has beyond those of a node. -/
def loadParts (program : Program) : StateM Draft (Datum × List (String × Datum)) := do
  let base := program.nextNode
  loadNode base program.root
  (program.blocks.toList.zipIdx).forM fun (block, id) => loadBlock base id block
  let registered ← loadNumbers base program.registered
  let sourceBlocks ← loadNumbers base program.sourceBlocks
  let comments ← loadComments program.comments
  let types ← loadArena base program.types
  let source := (program.source.map fun source => Datum.text (String.ofList source)).getD .null
  return (types, [("source_text", source), ("doc_blocks", registered),
    ("source_blocks", sourceBlocks), ("comments", comments), ("types", types)])

/-- Gives a record more attributes. -/
def extend (ref : Nat) (attributes : List (String × Datum)) (draft : Draft) : Draft :=
  match draft.things[ref]? with
  | some (.record sort old) => draft.put ref (.record sort (old ++ attributes))
  | _ => draft

/-- The draft of a program. -/
def ofProgram (program : Program) : Draft :=
  let size := program.nextNode + program.blocks.size
  let ((arena, attributes), draft) :=
    (loadParts program).run { things := Array.replicate size (.list []) }
  { draft.extend program.root.id attributes with root := program.root.id, arena }

end Draft

end DocTypes
