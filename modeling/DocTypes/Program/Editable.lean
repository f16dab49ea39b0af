import DocTypes.Doc.Printer
import DocTypes.Pass.Hooks
import DocTypes.Program.Builder
import DocTypes.Program.View

/-!
# Passes over programs

What a pass asks of a program that was read, and what it does to it.
-/

namespace DocTypes

/-- The block without a tag. -/
def Block.withoutTag (tag : Tag) (block : Block) : Block :=
  if block.tags.any fun other => other.id == tag.id then
    { block with
      tags := block.tags.eraseP fun other => other.id == tag.id
      removedTags := block.removedTags + 1 }
  else block

/-- What a tag says of a method. A parameter with a dotted name belongs to another one. -/
def Tag.role (tag : Tag) : TagRole :=
  if tag.title == "param" && tag.name != "" && !tag.name.toList.contains '.' then
    .parameter tag.name tag.optional
  else if tag.title == "returns" || tag.title == "return" then .result
  else .other

namespace Program

/-- The tag that a value has to be. -/
def asTag : Value → Except AccessFault Tag
  | .tag tag => .ok tag
  | _ => .error .noAttribute

/-- The number of a block, if the value is one. -/
def blockId? : Value → Option Nat
  | .block id => some id
  | _ => none

/-- The block that a value has to be. -/
def asBlock (program : Program) (value : Value) : Except AccessFault Block :=
  match (blockId? value).bind program.block? with
  | some block => .ok block
  | none => .error .noAttribute

/-- What a tag says that has a name and a type. -/
def typedefFacts? (value : Value) : Except AccessFault (Option (TypedefFacts Nat)) := do
  let tag ← asTag value
  if tag.name == "" then return none
  else return tag.typeKey.map fun key => { name := tag.name, key }

/-- The line on which a tag or a block stands. -/
def lineOf (program : Program) : Value → Except AccessFault (Option Int)
  | .tag tag => .ok (some tag.line)
  | value => do return some (← program.asBlock value).line

/-- Takes a tag out of its block. -/
def removeTag (value : Value) (program : Program) : Except AccessFault Program := do
  let tag ← asTag value
  match tag.owner with
  | none => throw .noAttribute
  | some owner => return { program with blocks := program.blocks.modify owner (·.withoutTag tag) }

/-- Unregisters blocks. -/
def unregister (blocks : List Value) (program : Program) : Nat × Program :=
  let doomed := blocks.filterMap blockId?
  let registered := program.registered.filter fun id => !doomed.contains id
  (program.registered.length - registered.length, { program with registered })

/-- The node that a block belongs to, unless it is the root. -/
def ownerOf? (program : Program) (value : Value) : Except AccessFault (Option Node) := do
  let block ← program.asBlock value
  return (block.owner.bind program.node?).filter fun node => node.id != program.root.id

/-- The tags of the block that documents a node. -/
def docTagsOf? (program : Program) (node : Node) : Option (List Value) :=
  (node.doc.bind program.block?).map fun block => block.tags.map .tag

/-- Where a value starts in the source. -/
def markOf? (program : Program) (value : Value) : Option Mark := do
  let source ← program.source
  let span ← match value with
    | .node node => node.span
    | .block id => (program.block? id).bind Block.span
    | _ => none
  return markAt source span.start

/-- Makes a type cast, and gives the text of its block. -/
def castText (typeText : String) (program : Program) : Except PassFault (String × Program) := do
  let (id, program) ← (program.addTypeCast typeText).mapError .typing
  return (((program.block? id).map fun block => block.print program.types).getD "", program)

/-- The program with blocks at the end of its body. -/
def appendBlocks (values : List Value) (program : Program) : Program :=
  let root := program.root.id
  { program with
    root := program.root.set .body
      (.list (((program.root.get .body).items?.getD []) ++ values))
    blocks := (values.filterMap blockId?).foldl (fun blocks id =>
      blocks.modify id fun block => { block with owner := some root }) program.blocks }

/-- The answer, or a fault if there is none. -/
def inRange {β : Type} (answer? : Option β) : Except AccessFault β :=
  match answer? with
  | some answer => .ok answer
  | none => .error .noPlace

instance : Editable Program Value Nat where
  select := query
  typedef? _ := typedefFacts?
  line := lineOf
  keyOf _ value :=
    match value with
    | .type node => .ok node.key
    | _ => .error .noAttribute
  reachable program key := inRange (program.types.reachable? key)
  replaceType key source program := do
    return { program with types := ← inRange (program.types.replace? key source) }
  removeTag
  unregister blocks program := .ok (program.unregister blocks)
  owner? := ownerOf?
  docTags? program node := .ok (program.docTagsOf? node)
  role _ value := do return (← asTag value).role
  typeText program value := do return (← asTag value).currentType program.types
  mark? program value := .ok (program.markOf? value)
  cast := castText
  typedef name typeText program :=
    let (id, program) := program.addTypedef name typeText
    .ok (.block id, program)
  append values program := .ok (program.appendBlocks values)

end Program

end DocTypes
