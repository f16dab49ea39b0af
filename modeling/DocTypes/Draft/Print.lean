import DocTypes.Draft.Docs
import DocTypes.Draft.Tree
import DocTypes.Print.Source

/-!
# Printing drafts

A draft is printed like any program: what the printer has to know of it is read from the attributes
of its things.
-/

namespace DocTypes.Draft

/-- Where something starts or ends, as an attribute says. -/
def boundOf : Option Datum → Bound
  | none => .absent
  | some .null => .unset
  | some datum =>
    match datum.asInt with
    | .ok offset => .at offset
    | .error _ => .misfit

/-- Where a value stands in the source. What has no proper kind cannot be printed wherever it
stands. -/
def extent (draft : Draft) (value : Value) : Extent :=
  let datum := refold value
  if draft.hasNoKind datum then ⟨.misfit, .misfit⟩
  else ⟨boundOf (draft.get? datum "start"), boundOf (draft.get? datum "end")⟩

/-- A place of a text, which may be left out. -/
def place? (datum : Datum) : Except AccessFault (Option Int) := do
  if datum.isNull then return none else return some (← datum.asInt)

/-- The text that the program says it was read from. -/
def source? (draft : Draft) : Option Datum :=
  draft.get? (.thing draft.root) "source_text"

/-- The text of the program that a block owns. -/
def ownText (draft : Draft) (block : Datum) : Except AccessFault (List Char) := do
  let source ← (draft.source?.getD (.text "")).asText
  let start ← place? (← draft.get block "start")
  return cut source.toList start (← place? (← draft.get block "end"))

/-- A block with its place in the program. -/
def blockPlace (draft : Draft) (arena : Datum) (isRegistered : Bool) (block : Datum) :
    Except AccessFault BlockPlace := do
  let start ← draft.get block "start"
  return {
    start := if start.isNull then none else some (start.asInt.toOption.getD 0)
    ownText := draft.ownText block
    leadingBreak := ← draft.flag block "leading_break"
    trailingBreak := ← draft.flag block "end_line"
    indent := do (← draft.get block "initial").asText
    opening := do (← draft.get block "delimiter").asText
    isRegistered
    isModified := draft.isModified arena block
    text := draft.blockText arena block }

/-- Prints documentation. What is neither a block nor a tag is printed as the type with its key. -/
def printDocument (draft : Draft) (arena : Datum) (registered : List Datum) (value : Value) :
    Except AccessFault (Option String) := do
  let datum := refold value
  match draft.thing? datum with
  | some (.record .block _) =>
    return some (← (← draft.blockPlace arena (registered.contains datum) datum).print)
  | some (.record .tag _) => return some (← draft.tagText arena datum)
  | _ => return (← draft.typeText arena (← draft.get datum "key")).text?

/-- The source's blocks in the order in which they start. Blocks without a place are left out. -/
def sourceSpans (draft : Draft) : Except AccessFault (List SourceBlock) := do
  match draft.get? (.thing draft.root) "source_blocks" with
  | none => return []
  | some blocks =>
    let found ← (← draft.items blocks).filterMapM fun block => do
      match ← place? (← draft.get block "start"), ← place? (← draft.get block "end") with
      | some start, some stop => return some ⟨draft.unfolded block, start, stop⟩
      | _, _ => return none
    return found.mergeSort fun a b => decide (a.start ≤ b.start)

/-- What a printer knows of a draft. -/
def printSource (draft : Draft) (text : Option (List Char)) (documented : Bool) :
    Except AccessFault PrintSource := do
  let document ← (do
    if documented then
      let arena ← draft.types
      let registered ← draft.itemsOf (.thing draft.root) "doc_blocks"
      return some (draft.printDocument arena registered)
    else return none)
  let blocks ← if text.isSome then draft.sourceSpans else pure []
  return { text, blocks, extent := draft.extent, document }

/-- Prints a draft: from its structure if no text is given, and without its documentation unless
`documented`. -/
def print (draft : Draft) (text : Option (List Char)) (documented : Bool) :
    Except PrintFault Text := do
  let source ← (draft.printSource text documented).mapError .access
  match draft.unfolded (.thing draft.root) with
  | .node root => source.print root
  | value => throw (.noPrinter value.kindText?)

/-- Prints a documented draft from a text. -/
def generate (draft : Draft) (text : Option (List Char)) : Except PrintFault Text := do
  return finishPrint text (← draft.print text true)

/-- Prints a documented draft from the text that it says it was read from. -/
def generateOwn (draft : Draft) : Except PrintFault Text :=
  draft.generate ((draft.source?.bind Datum.text?).map String.toList)

end DocTypes.Draft
