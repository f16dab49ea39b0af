import DocTypes.Doc.Printer
import DocTypes.Draft.Types

/-!
# Documentation of a draft

How the tags and blocks of a draft read. They are read from their attributes, and printed like any
tag and block.
-/

namespace DocTypes.Draft

/-- Does a tag's type read differently now? -/
def isTouched (draft : Draft) (arena tag : Datum) : Except AccessFault Bool := do
  let key ← draft.get tag "parsed_type"
  if key.isNull then return false else draft.touched arena key

/-- A tag's type as it now reads. -/
def tagType (draft : Draft) (arena tag : Datum) : Except AccessFault Datum := do
  if ← draft.isTouched arena tag then draft.typeText arena (← draft.get tag "parsed_type")
  else draft.get tag "raw_type"

/-- The lines of a description, none if it counts as false. -/
def descriptionOf (draft : Draft) (tag : Datum) : Except AccessFault (List String) := do
  let description ← draft.get tag "description"
  if draft.isTrue description then
    match draft.thing? description with
    | some (.table _) => throw .noEntry
    | some (.members _) => throw .misfit
    | _ => (← draft.items description).mapM Datum.asText
  else return []

/-- The name of a tag, with whether it is optional and its default, in a tag with this title. A name
that counts as false is none. -/
def namedTag (draft : Draft) (tag : Datum) (title : String) : Except AccessFault Tag := do
  let name ← draft.get tag "name"
  if draft.isTrue name then
    let named : Tag := { id := 0, title, name := ← name.asText }
    if ← draft.flag tag "optional" then
      let default ← draft.get tag "default"
      let defaultText ← if default.isNull then pure none else some <$> default.asText
      return { named with optional := true, defaultText }
    else return named
  else return { id := 0, title }

/-- The text of a tag as it now reads. -/
def tagText (draft : Draft) (arena tag : Datum) : Except AccessFault String := do
  let title ← (← draft.get tag "tag").asText
  let type ← draft.tagType arena tag
  let key ← draft.get tag "parsed_type"
  let typeText ← if draft.isTrue type || !key.isNull then type.asText else pure ""
  let named ← draft.namedTag tag title
  let typeKey := if key.isNull then none else some 0
  return { named with typeKey, description := ← draft.descriptionOf tag }.printAs typeText

/-- Would a block print differently from how it was written? -/
def isModified (draft : Draft) (arena block : Datum) : Except AccessFault Bool := do
  if ← draft.flag block "tags_removed" then return true
  else (← draft.itemsOf block "tags").anyM (draft.isTouched arena)

/-- The lines of a block without their gutter. -/
def blockLines (draft : Draft) (arena block : Datum) : Except AccessFault (List Datum) := do
  let description ← draft.itemsOf block "description"
  let tags ← (← draft.itemsOf block "tags").flatMapM fun tag => do
    return Block.linesOf (← draft.tagText arena tag)
  return description ++ tags.map .text

/-- The comment text of a block as it now reads. A line that counts as false is blank. -/
def blockText (draft : Draft) (arena block : Datum) : Except AccessFault String := do
  let text (name : String) : Except AccessFault String := do (← draft.get block name).asText
  let lines ← draft.blockLines arena block
  let opening ← text "delimiter"
  let closing ← text "terminal"
  let oneLine ← draft.flag block "one_line"
  let frame : Block := { opening, closing, oneLine }
  match lines, oneLine with
  | [], _ => return frame.printLines []
  | [line], true => return frame.printLines [← line.asText]
  | lines, _ =>
    let texts ← lines.mapM fun line => if draft.isTrue line then line.asText else .ok ""
    return { frame with indent := ← text "initial" }.printLines texts

end DocTypes.Draft
