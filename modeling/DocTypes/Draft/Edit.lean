import DocTypes.Draft.Operation

/-!
# Editing drafts

A path leads from the program's root to a part of a draft, by names of attributes and places in
lists. Edits put things in and take them out at the end of a path. A thing that is put in a second
place is one thing in two places.
-/

namespace DocTypes

/-- A step of a path. -/
inductive PathStep where
  | name (text : String)
  | place (index : Int)
deriving DecidableEq, Repr

namespace Draft

/-- What a step leads to. -/
def step (draft : Draft) (datum : Datum) : PathStep → Except AccessFault Datum
  | .name name => draft.get datum name
  | .place index => draft.itemAt datum index

/-- What a path leads to. -/
def follow (draft : Draft) (path : List PathStep) : Except AccessFault Datum :=
  path.foldlM draft.step (.thing draft.root)

/-- Puts a value at the end of a path, in the place of what stands there. -/
def assignPath (path : List PathStep) (value : Datum) (draft : Draft) :
    Except AccessFault Draft := do
  match path.getLast? with
  | none => throw .noPlace
  | some last =>
    let holder ← draft.follow path.dropLast
    match last with
    | .name name => draft.assign holder name value
    | .place index => draft.assignAt holder index value

/-- Puts what one path leads to also at the end of another. -/
def share (source target : List PathStep) (draft : Draft) : Except AccessFault Draft := do
  draft.assignPath target (← draft.follow source)

/-- Puts a value before a place of a list. The answer is the list's new length. -/
def insertAt (datum : Datum) (index : Int) (value : Datum) (draft : Draft) :
    Except AccessFault (Nat × Draft) :=
  match datum, draft.thing? datum with
  | .thing ref, some (.list items) =>
    let items := items.insertIdx (insertionPlace items.length index) value
    .ok (items.length, draft.put ref (.list items))
  | _, _ => .error .noAttribute

/-- Takes out what stands at a place. The answer is the number of items left. -/
def deleteAt (datum : Datum) (index : Int) (draft : Draft) : Except AccessFault (Nat × Draft) :=
  match datum, draft.thing? datum with
  | .thing ref, some (.list items) => do
    let items := items.eraseIdx (← placeIn items.length index)
    return (items.length, draft.put ref (.list items))
  | .thing ref, some (.table entries) =>
    let key := Datum.number (.int index)
    if entries.any fun entry => entry.1 == key then
      let entries := entries.eraseP fun entry => entry.1 == key
      .ok (entries.length, draft.put ref (.table entries))
    else .error .noEntry
  | _, _ => .error .misfit

end Draft

end DocTypes
