import DocTypes.Program.Basic

/-!
# New documentation

Blocks that were not read from a source. They have no span, so they are printed anew. New types go
into the program's arena.
-/

namespace DocTypes.Program

/-- Adds a block with one tag, and gives its number. -/
def addBlock (block : Block) (tag : Tag) (program : Program) : Nat × Program :=
  let id := program.blocks.size
  let tag := { tag with id := program.nextTag, owner := some id }
  (id, { program with
    blocks := program.blocks.push { block with tags := [tag] }
    nextTag := program.nextTag + 1 })

/-- Adds a block on one line that says of what type the expression after it is. A type that is not
empty is read. -/
def addTypeCast (typeText : String) (program : Program) : Except TypeError (Nat × Program) := do
  let tag : Tag := { id := 0, title := "type", typeText }
  if typeText == "" then return program.addBlock { oneLine := true } tag
  else
    let (key, types) ← program.types.readInto typeText.toList 1
    return { program with types }.addBlock { oneLine := true } { tag with typeKey := some key }

/-- Adds a block on lines of its own that gives a type a name. The type is kept as text: it may hold
members that are not part of the language of types. -/
def addTypedef (name typeText : String) (program : Program) : Nat × Program :=
  program.addBlock { leadingBreak := true, trailingBreak := true }
    { id := 0, title := "typedef", typeText, name }

end DocTypes.Program
