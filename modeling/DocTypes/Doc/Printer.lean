import DocTypes.Doc.Basic
import DocTypes.Text.Lines
import DocTypes.TypeExpr.Arena

/-!
# Printing documentation blocks

The text of a tag and of a whole comment. A type is printed as it was written, unless a slot below
its key was overwritten; then it is printed from the arena.
-/

namespace DocTypes

namespace Tag

/-- Does the tag's type read differently now? -/
def isTouched (tag : Tag) (types : Arena) : Bool :=
  (tag.typeKey.map types.touched).getD false

/-- The tag's type as it now reads. -/
def currentType (tag : Tag) (types : Arena) : String :=
  if tag.isTouched types then (tag.typeKey.bind types.print?).getD "" else tag.typeText

/-- The tag's name, in square brackets if it is optional. -/
def nameText (tag : Tag) : String :=
  if tag.optional then
    match tag.defaultText with
    | some default => "[" ++ tag.name ++ "=" ++ default ++ "]"
    | none => "[" ++ tag.name ++ "]"
  else tag.name

/-- The text of a tag, which may have several lines, given how its type reads. -/
def printAs (tag : Tag) (type : String) : String :=
  "@" ++ tag.title ++
    (if type != "" || tag.typeKey.isSome then " \x7b" ++ type ++ "\x7d" else "") ++
    (if tag.name != "" then " " ++ tag.nameText else "") ++
    (if tag.description.isEmpty then "" else " " ++ "\n".intercalate tag.description)

/-- The text of a tag as it now reads. -/
def print (tag : Tag) (types : Arena) : String :=
  tag.printAs (tag.currentType types)

end Tag

namespace Block

/-- Would the block print differently from how it was written? -/
def isModified (block : Block) (types : Arena) : Bool :=
  block.removedTags != 0 || block.tags.any fun tag => tag.isTouched types

/-- The lines of a tag's text. -/
def linesOf (text : String) : List String :=
  (splitLines text.toList).map String.ofList

/-- The lines of a block without their gutter. -/
def lines (block : Block) (types : Arena) : List String :=
  block.description ++ block.tags.flatMap fun tag => linesOf (tag.print types)

/-- The comment text of a block with these lines. All lines but the first start with the block's
indentation. -/
def printLines (block : Block) : List String → String
  | [] => block.opening ++ " " ++ block.closing
  | lines =>
    match block.oneLine, lines with
    | true, [line] => block.opening ++ " " ++ line ++ " " ++ block.closing
    | _, _ =>
      block.opening ++ "\n" ++
        String.join (lines.map fun line =>
          block.indent ++ (if line == "" then " *" else " * " ++ line) ++ "\n") ++
        block.indent ++ " " ++ block.closing

/-- The comment text of a block as it now reads. -/
def print (block : Block) (types : Arena) : String :=
  block.printLines (block.lines types)

end Block

end DocTypes
