import DocTypes.Tree.Text

/-!
# Drafts

A draft is a program under edit. All that it is made of, nodes, blocks, tags, types and lists, are
things with numbers, and an attribute or a list holds plain data or the number of a thing. So a
thing can stand in several places, and whoever edits it edits it in all of them. An edit may give
any attribute any value; whether the value fits shows when it is used.
-/

namespace DocTypes

/-- What an attribute of a thing or an item of a list holds. -/
inductive Datum where
  | null
  | bool (value : Bool)
  | text (value : String)
  /-- the code points of a decoded string literal -/
  | decoded (points : List Nat)
  | number (value : Number)
  /-- something that a value can do -/
  | operation
  /-- a thing, by its number -/
  | thing (ref : Nat)
deriving DecidableEq, Repr

instance : Inhabited Datum := ⟨.null⟩

/-- The datum with a truth value as the number that it counts as. -/
def Datum.counted : Datum → Datum
  | .bool value => .number (.int (if value then 1 else 0))
  | datum => datum

/-- Data are alike if they are equal once truth values are counted as numbers. -/
instance : BEq Datum := ⟨fun a b => decide (a.counted = b.counted)⟩

/-- The sorts of things with named attributes. A type keeps the kind it was made with. -/
inductive RecordSort where
  | node
  | block
  | tag
  | type (kind : String)
  | arena
  | comment
deriving DecidableEq, Repr

/-- A thing of a draft. -/
inductive Thing where
  /-- a thing with named attributes -/
  | record (sort : RecordSort) (attributes : List (String × Datum))
  | list (items : List Datum)
  /-- values that are looked up by keys -/
  | table (entries : List (Datum × Datum))
  /-- data without order, each once -/
  | members (items : List Datum)
deriving Repr

/-- A program under edit. -/
structure Draft where
  things : Array Thing := #[]
  /-- the number of the program's root -/
  root : Nat := 0
  /-- the arena that new types go to -/
  arena : Datum := .null

/-- The place that an index means in a list, if the list has it. A place below zero counts from the
end. -/
def placeIn (length : Nat) (index : Int) : Except AccessFault Nat :=
  let place := if index < 0 then index + length else index
  if 0 ≤ place && place < length then .ok place.toNat else .error .noPlace

/-- The place before which an index inserts. -/
def insertionPlace (length : Nat) (index : Int) : Nat :=
  min (offset index) length
where
  /-- The place that an index means, whether the list has it or not. -/
  offset (index : Int) : Nat := (if index < 0 then index + length else index).toNat

/-- Gives a name a value. A name that has one keeps its place. -/
def assignName (name : String) (value : Datum) :
    List (String × Datum) → List (String × Datum)
  | [] => [(name, value)]
  | (other, old) :: rest =>
    if other == name then (name, value) :: rest else (other, old) :: assignName name value rest

/-- Gives a key a value. -/
def assignKey (key value : Datum) : List (Datum × Datum) → List (Datum × Datum)
  | [] => [(key, value)]
  | (other, old) :: rest =>
    if other == key then (key, value) :: rest else (other, old) :: assignKey key value rest

/-- The text that code points spell, unless one of them is half of a pair. -/
def Datum.ofPoints (points : List Nat) : Datum :=
  if points.any isSurrogate then .decoded points else .text (textOfPoints points)

/-- A natural number as a datum. -/
def Datum.nat (value : Nat) : Datum :=
  .number (.int value)

/-- The whole number that a datum has to be. A truth value counts as zero or one. -/
def Datum.asInt : Datum → Except AccessFault Int
  | .number (.int value) => .ok value
  | .bool value => .ok (if value then 1 else 0)
  | _ => .error .misfit

/-- The text that a datum is. -/
def Datum.text? : Datum → Option String
  | .text value => some value
  | _ => none

/-- The text that a datum has to be, or else there is this fault. -/
def Datum.asText (datum : Datum) (fault : AccessFault := .misfit) : Except AccessFault String :=
  match datum with
  | .text value => .ok value
  | _ => .error fault

/-- Is it nothing? -/
def Datum.isNull : Datum → Bool
  | .null => true
  | _ => false

namespace Draft

/-- The thing that a datum refers to. -/
def thing? (draft : Draft) : Datum → Option Thing
  | .thing ref => draft.things[ref]?
  | _ => none

/-- Adds a thing. -/
def add (thing : Thing) (draft : Draft) : Datum × Draft :=
  (.thing draft.things.size, { draft with things := draft.things.push thing })

/-- Gives a number another thing. -/
def put (ref : Nat) (thing : Thing) (draft : Draft) : Draft :=
  { draft with things := draft.things.setIfInBounds ref thing }

/-- Nothing, false, zero and what is empty count as false, all else as true. -/
def isTrue (draft : Draft) (datum : Datum) : Bool :=
  match datum with
  | .null => false
  | .bool value => value
  | .text value => value != ""
  | .decoded points => !points.isEmpty
  | .number (.int value) => value != 0
  | .number (.float value) => value != Binary64.zero false && value != Binary64.zero true
  | .operation => true
  | .thing _ =>
    match draft.thing? datum with
    | some (.list items) | some (.members items) => !items.isEmpty
    | some (.table entries) => !entries.isEmpty
    | _ => true

/-- What a walk through a datum meets: the items of a list, the keys of a table, the characters of a
text. -/
def items (draft : Draft) (datum : Datum) : Except AccessFault (List Datum) :=
  match datum, draft.thing? datum with
  | .text value, _ => .ok (value.toList.map fun c => .text c.toString)
  | .decoded points, _ => .ok (points.map fun point => .ofPoints [point])
  | _, some (.list items) | _, some (.members items) => .ok items
  | _, some (.table entries) => .ok (entries.map (·.1))
  | _, _ => .error .misfit

/-- The item of a datum at a place. -/
def itemAt (draft : Draft) (datum : Datum) (index : Int) : Except AccessFault Datum :=
  match datum, draft.thing? datum with
  | .text value, _ => do
    match value.toList[← placeIn value.length index]? with
    | some c => return .text c.toString
    | none => throw .noPlace
  | .decoded points, _ => do
    match points[← placeIn points.length index]? with
    | some point => return .ofPoints [point]
    | none => throw .noPlace
  | _, some (.list items) => do
    match items[← placeIn items.length index]? with
    | some item => return item
    | none => throw .noPlace
  | _, some (.table entries) =>
    match entries.lookup (.number (.int index)) with
    | some value => .ok value
    | none => .error .noEntry
  | _, _ => .error .misfit

/-- Gives the item at a place another value. -/
def assignAt (datum : Datum) (index : Int) (value : Datum) (draft : Draft) :
    Except AccessFault Draft :=
  match datum, draft.thing? datum with
  | .thing ref, some (.list items) => do
    return draft.put ref (.list (items.set (← placeIn items.length index) value))
  | .thing ref, some (.table entries) =>
    .ok (draft.put ref (.table (assignKey (.number (.int index)) value entries)))
  | _, _ => .error .misfit

/-- Puts a value after the items of a list. -/
def append (datum value : Datum) (draft : Draft) : Except AccessFault Draft :=
  match datum, draft.thing? datum with
  | .thing ref, some (.list items) => .ok (draft.put ref (.list (items ++ [value])))
  | _, _ => .error .noAttribute

/-- Puts a value among data without order, unless it is one of them. -/
def addMember (datum value : Datum) (draft : Draft) : Except AccessFault Draft :=
  match datum, draft.thing? datum with
  | .thing ref, some (.members items) =>
    .ok (if items.contains value then draft else draft.put ref (.members (value :: items)))
  | _, _ => .error .noAttribute

end Draft

end DocTypes
