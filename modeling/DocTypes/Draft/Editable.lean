import DocTypes.Draft.Builder
import DocTypes.Draft.Edit
import DocTypes.Draft.Print
import DocTypes.Draft.View
import DocTypes.Pass.Hooks

/-!
# Passes over drafts

What a pass asks of a draft, and what it does to it.
-/

namespace DocTypes

/-- The fault of a pass that cannot make something. -/
def PassFault.ofBuild : BuildFault → PassFault
  | .typing error => .typing error
  | .access fault => .access fault

namespace Draft

/-- What a tag says that has a name and a type. -/
def typedefFacts? (draft : Draft) (tag : Datum) :
    Except AccessFault (Option (TypedefFacts Datum)) := do
  let name ← draft.get tag "name"
  let key ← if draft.isTrue name then draft.get tag "parsed_type" else pure .null
  match key, name with
  | .null, _ => return none
  | key, .text name => return some { name, key }
  | key, .number number => return some { name := ← number.write, key, isText := false }
  | _, _ => throw .misfit

/-- The line on which a tag or a block stands. -/
def lineOf (draft : Draft) (datum : Datum) : Except AccessFault (Option Int) := do
  place? (← draft.get datum "line")

/-- Takes a tag out of its block. -/
def removeTag (tag : Datum) (draft : Draft) : Except AccessFault Draft := do
  let block ← draft.get tag "parent"
  let tags ← draft.get block "tags"
  match (← draft.items tags).findIdx? fun other => other == tag with
  | none => return draft
  | some place =>
    let (_, draft) ← draft.deleteAt tags place
    let removed ← (← draft.get block "tags_removed").asInt
    draft.assign block "tags_removed" (.number (.int (removed + 1)))

/-- Unregisters blocks. -/
def unregister (doomed : List Datum) (draft : Draft) : Except AccessFault (Nat × Draft) := do
  let registered ← draft.itemsOf (.thing draft.root) "doc_blocks"
  let left := registered.filter fun block => !doomed.contains block
  let (blocks, draft) := draft.add (.list left)
  return (registered.length - left.length, ← draft.assign (.thing draft.root) "doc_blocks" blocks)

/-- The node that a block belongs to, unless it is the root. -/
def ownerOf? (draft : Draft) (block : Datum) : Except AccessFault (Option Node) := do
  match draft.unfolded (← draft.get block "parent") with
  | .node owner => return if owner.id == draft.root then none else some owner
  | _ => return none

/-- The tags of the block that documents a node. -/
def docTagsOf? (draft : Draft) (node : Node) : Except AccessFault (Option (List Datum)) := do
  let doc ← draft.get (.thing node.id) "jsdoc"
  if doc.isNull then return none else return some (← draft.itemsOf doc "tags")

/-- What a tag says of a method. A parameter with a dotted name belongs to another one. -/
def roleOf (draft : Draft) (tag : Datum) : Except AccessFault TagRole := do
  match ← draft.get tag "tag" with
  | .text "param" =>
    let name ← draft.get tag "name"
    if draft.isTrue name then
      let name ← name.asText
      if name.toList.contains '.' then return .other
      else return .parameter name (← draft.flag tag "optional")
    else return .other
  | .text "returns" | .text "return" => return .result
  | _ => return .other

/-- Where a value starts in the source. -/
def markOf? (draft : Draft) (value : Value) : Except AccessFault (Option Mark) := do
  if value.isNull then return none
  match ← draft.get (refold value) "start", draft.source? with
  | .null, _ | _, none | _, some .null => return none
  | start, some source =>
    return some (markAt (← source.asText .noAttribute).toList (← start.asInt))

/-- Makes a type cast, and gives the text of its block. -/
def castText (typeText : String) (draft : Draft) : Except PassFault (String × Draft) := do
  let arena ← draft.types.mapError .access
  let (block, draft) ← (Build.typeCast arena (.text typeText) draft).mapError .ofBuild
  return (← (draft.blockText arena block).mapError .access, draft)

/-- Makes a block that gives a type a name. -/
def addTypedef (name typeText : String) (draft : Draft) : Except AccessFault (Datum × Draft) :=
  (Build.typedef (.text name) (.text typeText) draft).mapError fun
    | .access fault => fault
    | .typing _ => .misfit

/-- Puts blocks at the end of the program's body. -/
def appendBlocks (blocks : List Datum) (draft : Draft) : Except AccessFault Draft :=
  blocks.foldlM (fun draft block => do
    let draft ← draft.assign block "parent" (.thing draft.root)
    draft.append (← draft.get (.thing draft.root) "body") block) draft

instance : Editable Draft Datum Datum where
  select := query
  typedef? := typedefFacts?
  line := lineOf
  keyOf draft reference := draft.get reference "key"
  reachable draft key := do draft.reachable (← draft.types) key
  replaceType key source draft := do draft.replace (← draft.types) key source
  removeTag
  unregister
  owner? := ownerOf?
  docTags? := docTagsOf?
  role := roleOf
  typeText draft tag := do (← draft.tagType (← draft.types) tag).asText .noAttribute
  mark? := markOf?
  cast := castText
  typedef := addTypedef
  append := appendBlocks

end Draft

end DocTypes
