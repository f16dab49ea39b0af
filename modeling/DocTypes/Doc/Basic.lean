import DocTypes.Text.Position

/-!
# Documentation blocks

A documentation comment is a block: some lines of description and then tags. A block also keeps how
it was laid out in the source, so that it can be put back in its place after a change. Blocks and
syntax nodes are numbered; a tag knows the number of its block, and a block that of the node it
documents.
-/

namespace DocTypes

/-- One tag of a block, `@title {type} name description`. -/
structure Tag where
  /-- the number that tells tags apart -/
  id : Nat
  title : String
  /-- the type as it was written, without its braces -/
  typeText : String := ""
  /-- the key of the type in the arena, if the type was read -/
  typeKey : Option Nat := none
  name : String := ""
  optional : Bool := false
  defaultText : Option String := none
  description : List String := []
  line : Nat := 0
  /-- the number of the block that holds the tag -/
  owner : Option Nat := none
deriving DecidableEq, Repr

/-- A documentation block. A block that was not read from a source has no span. -/
structure Block where
  tags : List Tag := []
  description : List String := []
  /-- what stands before the comment on its line -/
  indent : String := ""
  opening : String := "/**"
  closing : String := "*/"
  /-- the comment was written on one line -/
  oneLine : Bool := false
  /-- the span starts with the line break before the comment -/
  leadingBreak : Bool := false
  /-- the span holds the line break after the comment -/
  trailingBreak : Bool := false
  /-- the comment with the layout around it that belongs to the block -/
  span : Option Span := none
  line : Nat := 0
  /-- how many tags were taken out -/
  removedTags : Nat := 0
  /-- the number of the node that the block documents -/
  owner : Option Nat := none
deriving DecidableEq, Repr

/-- Has the block a tag with this title? -/
def Block.hasTag (block : Block) (title : String) : Bool :=
  block.tags.any fun tag => tag.title == title

end DocTypes
