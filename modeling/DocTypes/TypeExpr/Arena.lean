import DocTypes.DepthFirst
import DocTypes.TypeExpr.Printer
import DocTypes.TypeExpr.Reader

/-!
# The type arena

The types of one program live in an arena: an array of slots, each of which holds one layer of a
type and refers to its parts by their keys. Whoever holds a key sees what the slot holds now, so
overwriting the slot of a name changes every type that mentions it there.

`Arena.store` reads a type into an arena: each production puts its layer behind the layers of its
parts. `Arena.insert` stores a type tree in the same order, and `Arena.tree?` reads a tree back.
`Arena.reachable?` lists the keys below a key, in the order of a depth-first walk.
-/

namespace DocTypes

/-- What a slot holds, together with the slot's key. -/
structure TypeNode where
  key : Nat
  shape : TypeShape Nat
deriving DecidableEq, Repr

/-- The types of a program; `replaced` lists the keys of the slots that were overwritten. -/
structure Arena where
  slots : Array TypeNode := #[]
  replaced : List Nat := []
deriving DecidableEq, Repr

namespace Arena

/-- What the slot `key` holds. -/
def get? (arena : Arena) (key : Nat) : Option TypeNode :=
  arena.slots[key]?

/-- A new slot, and its key. -/
def add (shape : TypeShape Nat) : StateM Arena Nat := fun arena =>
  (arena.slots.size, { arena with slots := arena.slots.push ⟨arena.slots.size, shape⟩ })

end Arena

/-- A reader that stores types while it reads. What it has stored stays if it fails. -/
abbrev ArenaReader := TypeReaderT (ExceptT TypeFault (StateM Arena))

/-- Types are made as slots. -/
instance : TypeMaker (ExceptT TypeFault (StateM Arena)) Nat where
  make shape cursor arena :=
    let (key, arena') := Arena.add shape arena
    (.ok (key, cursor), arena')

namespace Arena

mutual

/-- Stores a type, its parts first, and gives the key of the whole. -/
def insert : TypeExpr → StateM Arena Nat
  | .name text => add (.name text)
  | .any => add .any
  | .unknown => add .unknown
  | .string text quote => add (.string text quote)
  | .number text => add (.number text)
  | .union elements => do add (.union (← insertAll elements))
  | .intersection elements => do add (.intersection (← insertAll elements))
  | .generic head arguments dotted => do
    let head ← insert head
    let arguments ← insertAll arguments
    add (.generic head arguments dotted)
  | .array element => do add (.array (← insert element))
  | .field name type optional readonly quote => do
    add (.field name (← insertOption type) optional readonly quote)
  | .object fields separator => do add (.object (← insertAll fields) separator)
  | .tuple elements => do add (.tuple (← insertAll elements))
  | .parameter name type optional variadic => do
    add (.parameter name (← insertOption type) optional variadic)
  | .function parameters result arrow constructs => do
    let parameters ← insertAll parameters
    let result ← insertOption result
    add (.function parameters result arrow constructs)
  | .parenthesis element => do add (.parenthesis (← insert element))
  | .nullable element leading => do add (.nullable (← insert element) leading)
  | .notNullable element leading => do add (.notNullable (← insert element) leading)
  | .optional element => do add (.optional (← insert element))
  | .variadic element => do add (.variadic (← insertOption element))
  | .typeof element => do add (.typeof (← insert element))
  | .keyof element => do add (.keyof (← insert element))

/-- Stores types one after the other. -/
def insertAll : List TypeExpr → StateM Arena (List Nat)
  | [] => return []
  | type :: rest => do
    let key ← insert type
    return key :: (← insertAll rest)

/-- Stores a type that may be missing. -/
def insertOption : Option TypeExpr → StateM Arena (Option Nat)
  | none => return none
  | some type => return some (← insert type)

end

/-- The tree of a layer, given the trees of its parts. -/
def assemble (part : Nat → Option TypeExpr) : TypeShape Nat → Option TypeExpr
  | .name text => some (.name text)
  | .any => some .any
  | .unknown => some .unknown
  | .string text quote => some (.string text quote)
  | .number text => some (.number text)
  | .union elements => return .union (← elements.mapM part)
  | .intersection elements => return .intersection (← elements.mapM part)
  | .generic head arguments dotted =>
    return .generic (← part head) (← arguments.mapM part) dotted
  | .array element => return .array (← part element)
  | .field name type optional readonly quote =>
    return .field name (← type.mapM part) optional readonly quote
  | .object fields separator => return .object (← fields.mapM part) separator
  | .tuple elements => return .tuple (← elements.mapM part)
  | .parameter name type optional variadic =>
    return .parameter name (← type.mapM part) optional variadic
  | .function parameters result arrow constructs =>
    return .function (← parameters.mapM part) (← result.mapM part) arrow constructs
  | .parenthesis element => return .parenthesis (← part element)
  | .nullable element leading => return .nullable (← part element) leading
  | .notNullable element leading => return .notNullable (← part element) leading
  | .optional element => return .optional (← part element)
  | .variadic element => return .variadic (← element.mapM part)
  | .typeof element => return .typeof (← part element)
  | .keyof element => return .keyof (← part element)

/-- The type below a key, if it is at most `depth` layers deep. -/
def treeTo (arena : Arena) : Nat → Nat → Option TypeExpr
  | 0, _ => none
  | depth + 1, key => do
    let node ← arena.get? key
    assemble (treeTo arena depth) node.shape

/-- The type below a key. A key outside the arena has none, and neither has one that lies on a
cycle: without a cycle a type has no more layers than there are slots. -/
def tree? (arena : Arena) (key : Nat) : Option TypeExpr :=
  treeTo arena arena.slots.size key

/-- The text of the type below a key. -/
def print? (arena : Arena) (key : Nat) : Option String :=
  (arena.tree? key).map TypeExpr.print

/-- The keys of the parts of a slot. -/
def children? (arena : Arena) (key : Nat) : Option (List Nat) :=
  (arena.get? key).map fun node => node.shape.children

/-- The keys reachable from a key, the key itself first, each once and in the order of a depth-first
walk. Every slot puts its parts on the stack once, which bounds the walk. -/
def reachable? (arena : Arena) (key : Nat) : Option (List Nat) :=
  let parts := (arena.slots.toList.map fun node => node.shape.children.length).foldl (· + ·) 0
  depthFirst arena.children? (parts + 2) [key] []

/-- Gives the slot `key` what the slot `source` holds. The parts are shared by both. -/
def replace? (arena : Arena) (key source : Nat) : Option Arena := do
  let node ← arena.get? source
  guard (key < arena.slots.size)
  return {
    slots := arena.slots.setIfInBounds key ⟨key, node.shape⟩
    replaced := if arena.replaced.contains key then arena.replaced else key :: arena.replaced }

/-- Was a slot overwritten that is reachable from the key? -/
def touched? (arena : Arena) (key : Nat) : Option Bool :=
  if arena.replaced.isEmpty then some false
  else (arena.reachable? key).map fun keys => keys.any arena.replaced.contains

/-- Was a slot overwritten that is reachable from the key? Nothing is reachable from a key outside
the arena. -/
def touched (arena : Arena) (key : Nat) : Bool :=
  (arena.touched? key).getD false

/-- Reads a type that stands on line `line` into the arena. -/
def store (text : List Char) (line : Nat) : StateM Arena (Except TypeError Nat) := fun arena =>
  match TypeToken.lex text with
  | .error error => (.error error, arena)
  | .ok tokens =>
    let reader : ArenaReader Nat := TypeReader.root (tokens.length + 1)
    match reader.run ⟨tokens, ⟨.endOfInput, "", text.length⟩⟩ arena with
    | (.ok (key, _), arena') => (.ok key, arena')
    | (.error (cause, offset), arena') =>
      (.error { cause, text, position := ⟨line, offset + 1⟩ }, arena')

/-- The key of a type that is read into the arena, and the arena after it. -/
def readInto (arena : Arena) (text : List Char) (line : Nat) : Except TypeError (Nat × Arena) :=
  match store text line arena with
  | (.ok key, arena') => .ok (key, arena')
  | (.error error, _) => .error error

end Arena

end DocTypes
