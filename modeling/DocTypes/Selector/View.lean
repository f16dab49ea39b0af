import DocTypes.Access
import DocTypes.Selector.Basic

/-!
# What selectors see

A selector looks at a tree of things, and a `View` says what it sees of them: the name of a thing's
kind, what stands below it, its attributes and their texts. So selectors can be used on programs
however they are kept.
-/

namespace DocTypes

/-- What stands below a thing under one name: a list, holes included, or a single thing. -/
structure Held (α : Type) where
  isList : Bool
  items : List α

/-- What selectors see of things. -/
structure View (α : Type) where
  /-- the name of a thing's kind -/
  kind? : α → Option String
  /-- what stands below a thing -/
  held : α → Except AccessFault (List (Held α))
  /-- a hole in a list, or an attribute that is not set -/
  isNull : α → Bool
  /-- are they one and the same thing? -/
  same : α → α → Bool
  /-- what a thing's attribute with a name holds -/
  attribute? : α → String → Option α
  /-- how a thing reads, if it can be read -/
  text : α → Except AccessFault (Option String)
  /-- a bound for the number of things above a thing -/
  levels : Nat

namespace View

variable {α : Type} (view : View α)

/-- What stands right below a thing. -/
def children (thing : α) : Except AccessFault (List α) := do
  return ((← view.held thing).flatMap Held.items).filter fun child => !view.isNull child

/-- The list below `parent` that holds a thing, holes included, and its place in it. -/
def siblings? (thing parent : α) : Except AccessFault (Option (List α × Nat)) := do
  return (← view.held parent).findSome? fun held => do
    guard held.isList
    let place ← held.items.findIdx? (view.same thing)
    return (held.items, place)

/-- A thing and all below it, `levels` deep, each with what stands above it, nearest first. -/
def walkFrom : Nat → α → List α → Except AccessFault (List (α × List α))
  | 0, _, _ => return []
  | levels + 1, thing, above => do
    let below ← (← view.children thing).mapM fun child => walkFrom levels child (thing :: above)
    return (thing, above) :: below.flatten

/-- A thing and all below it, each with what stands above it up to the thing, nearest first. -/
def walk (thing : α) : Except AccessFault (List (α × List α)) :=
  view.walkFrom view.levels thing []

/-- The value that a path of attributes leads to. Nothing leads on from what is not set. -/
def follow? : α → List String → Option α
  | thing, [] => some thing
  | thing, name :: path =>
    if view.isNull thing then none else do follow? (← view.attribute? thing name) path

end View

end DocTypes
